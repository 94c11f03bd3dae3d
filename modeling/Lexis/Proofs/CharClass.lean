import Lexis.CharClass

/-!
# What the character classes hold

`CharClass.of` classifies by a chain of tests. Here each class is told by the characters it holds
(`CharClass.Holds`), whatever the order of the tests: `CharClass.of_eq_iff`. From it follow the two
questions the token grammar asks, in terms of characters: `isSpace_iff_mem` for white space, and
the lemmas on `isContinuedBy`, one for each way a lexeme begins.
-/

namespace Lexis

/-- The characters that separate tokens. -/
def whiteSpace : List Char := [' ', '\t', '\r', '\n']

/-- A character that no token but an error token may hold: neither white space, nor a comma, nor
a minus sign, nor an ASCII letter or digit. -/
def Unsupported (c : Char) : Prop :=
  c ∉ whiteSpace ∧ c ≠ ',' ∧ c ≠ '-' ∧ ¬ c.isAlphanum

instance : DecidablePred Unsupported := fun c => by unfold Unsupported; infer_instance

/-! ## Letters and digits -/

/-- A letter is an upper-case letter or a lower-case letter. -/
theorem isAlpha_eq (c : Char) : c.isAlpha = (c.isUpper || c.isLower) := rfl

/-- The upper-case letters are a range of code points, so that `omega` can tell them from others. -/
theorem isUpper_iff {c : Char} : c.isUpper ↔ 65 ≤ c.toNat ∧ c.toNat ≤ 90 := by
  show decide (c.val ≥ 'A'.val ∧ c.val ≤ 'Z'.val) = true ↔ _
  simp [UInt32.le_iff_toNat_le]

/-- The lower-case letters are a range of code points. -/
theorem isLower_iff {c : Char} : c.isLower ↔ 97 ≤ c.toNat ∧ c.toNat ≤ 122 := by
  show (decide (c.val ≥ 'a'.val) && decide (c.val ≤ 'z'.val)) = true ↔ _
  simp [UInt32.le_iff_toNat_le]

/-- No letter is a digit, since their ranges of code points are apart. -/
theorem isDigit_eq_false_of_isAlpha {c : Char} (h : c.isAlpha) : c.isDigit = false := by
  rw [Bool.eq_false_iff]
  intro hd
  simp [isAlpha_eq, isUpper_iff, isLower_iff] at h
  simp [Char.isDigit, UInt32.le_iff_toNat_le] at hd
  omega

/-- No letter is of both cases. -/
theorem isLower_eq_false_of_isUpper {c : Char} (h : c.isUpper) : c.isLower = false := by
  rw [Bool.eq_false_iff]
  intro hl
  rw [isUpper_iff] at h
  rw [isLower_iff] at hl
  omega

/-- Lower-case letters are letters. -/
theorem isAlpha_of_isLower {c : Char} (h : c.isLower) : c.isAlpha := by simp [isAlpha_eq, h]

/-- Upper-case letters are letters. -/
theorem isAlpha_of_isUpper {c : Char} (h : c.isUpper) : c.isAlpha := by simp [isAlpha_eq, h]

/-- Letters may stand inside a word. -/
theorem isAlphanum_of_isAlpha {c : Char} (h : c.isAlpha) : c.isAlphanum := by
  simp [Char.isAlphanum, h]

/-- Digits may stand inside a word. -/
theorem isAlphanum_of_isDigit {c : Char} (h : c.isDigit) : c.isAlphanum := by
  simp [Char.isAlphanum, h]

/-! ## Classes -/

namespace CharClass

/-- The characters that a class holds. -/
def Holds : CharClass → Char → Prop
  | .newline, c => c = '\n'
  | .blank, c => c = ' ' ∨ c = '\t' ∨ c = '\r'
  | .comma, c => c = ','
  | .minus, c => c = '-'
  | .digit, c => c.isDigit
  | .lower, c => c.isLower
  | .upper, c => c.isUpper
  | .other, c => Unsupported c

/-- The class of a character holds it. -/
theorem holds_of (c : Char) : (of c).Holds c := by
  unfold of
  repeat' split
  all_goals simp_all [Holds, Unsupported, whiteSpace, Char.isAlphanum, isAlpha_eq]

/-- The tests for letters and digits decide the class of a letter or digit. -/
theorem of_of_isAlphanum {c : Char} (h : c.isAlphanum) :
    of c = if c.isDigit then .digit else if c.isLower then .lower else .upper := by
  have hn : c ≠ '\n' := by rintro rfl; cases h
  have hb : ¬ (c = ' ' ∨ c = '\t' ∨ c = '\r') := by rintro (rfl | rfl | rfl) <;> cases h
  have hc : c ≠ ',' := by rintro rfl; cases h
  have hm : c ≠ '-' := by rintro rfl; cases h
  unfold of
  rw [if_neg hn, if_neg hb, if_neg hc, if_neg hm]
  grind [Char.isAlphanum, isAlpha_eq]

/-- A class that holds a character is its class. -/
theorem of_of_holds {k : CharClass} {c : Char} (h : k.Holds c) : of c = k := by
  cases k with
  | newline | comma | minus => cases h; rfl
  | blank => rcases h with rfl | rfl | rfl <;> rfl
  | digit =>
    have hd : c.isDigit := h
    rw [of_of_isAlphanum (isAlphanum_of_isDigit hd), if_pos hd]
  | lower =>
    have hl : c.isLower := h
    have ha := isAlpha_of_isLower hl
    rw [of_of_isAlphanum (isAlphanum_of_isAlpha ha), isDigit_eq_false_of_isAlpha ha, hl]
    rfl
  | upper =>
    have hu : c.isUpper := h
    have ha := isAlpha_of_isUpper hu
    rw [of_of_isAlphanum (isAlphanum_of_isAlpha ha), isDigit_eq_false_of_isAlpha ha,
      isLower_eq_false_of_isUpper hu]
    rfl
  | other =>
    obtain ⟨hs, hc, hm, ha⟩ := h
    simp only [whiteSpace, List.mem_cons, List.not_mem_nil, or_false, not_or] at hs
    simp only [Char.isAlphanum, isAlpha_eq, Bool.or_eq_true, not_or] at ha
    simp [of, hs, hc, hm, ha]

/-- The classes hold each character once: its class is the one that holds it. -/
theorem of_eq_iff {k : CharClass} {c : Char} : of c = k ↔ k.Holds c :=
  ⟨fun h => h ▸ holds_of c, of_of_holds⟩

/-- The characters inside a word are the ASCII letters and digits. -/
theorem isWord_of (c : Char) : (of c).isWord = c.isAlphanum := by
  have h := holds_of c
  cases hk : of c <;> rw [hk] at h
  case newline | comma | minus => cases h; rfl
  case blank => rcases h with rfl | rfl | rfl <;> rfl
  case digit => exact (isAlphanum_of_isDigit h).symm
  case lower => exact (isAlphanum_of_isAlpha (isAlpha_of_isLower h)).symm
  case upper => exact (isAlphanum_of_isAlpha (isAlpha_of_isUpper h)).symm
  case other => exact (Bool.eq_false_iff.2 h.2.2.2).symm

/-- The characters inside a number are the ASCII digits. -/
theorem of_eq_digit (c : Char) : decide (of c = .digit) = c.isDigit :=
  Bool.eq_iff_iff.2 (decide_eq_true_iff.trans of_eq_iff)

end CharClass

/-! ## White space and the characters that continue a lexeme -/

/-- What is skipped between lexemes is the characters of `whiteSpace`. -/
theorem isSpace_iff_mem {c : Char} : isSpace c ↔ c ∈ whiteSpace := by
  simp [isSpace_iff, whiteSpace]

/-- A lexeme that begins with a letter goes on with letters and digits. -/
theorem isContinuedBy_of_isAlpha {first : Char} (h : first.isAlpha) (c : Char) :
    isContinuedBy first c = c.isAlphanum := by
  rw [← CharClass.isWord_of]
  rcases Bool.or_eq_true_iff.1 h with h | h
  · rw [isContinuedBy, CharClass.of_of_holds (k := .upper) h]; rfl
  · rw [isContinuedBy, CharClass.of_of_holds (k := .lower) h]; rfl

/-- A lexeme that begins with a digit goes on with digits. -/
theorem isContinuedBy_of_isDigit {first : Char} (h : first.isDigit) (c : Char) :
    isContinuedBy first c = c.isDigit := by
  rw [← CharClass.of_eq_digit, isContinuedBy, CharClass.of_of_holds (k := .digit) h]; rfl

/-- A lexeme that begins with a minus sign goes on with digits. -/
theorem isContinuedBy_minus (c : Char) : isContinuedBy '-' c = c.isDigit := by
  rw [← CharClass.of_eq_digit]; rfl

/-- A comma is a lexeme alone. -/
theorem isContinuedBy_comma (c : Char) : isContinuedBy ',' c = false := rfl

/-- A character that is not supported is a lexeme alone. -/
theorem isContinuedBy_of_unsupported {first : Char} (h : Unsupported first) (c : Char) :
    isContinuedBy first c = false := by
  rw [isContinuedBy, CharClass.of_of_holds (k := .other) h]; rfl

/-- Only letters and digits continue a lexeme. -/
theorem isAlphanum_of_isContinuedBy {first c : Char} (h : isContinuedBy first c) :
    c.isAlphanum := by
  rw [← CharClass.isWord_of]
  unfold isContinuedBy CharClass.continues at h
  split at h
  · exact h
  · exact h
  · rw [decide_eq_true_iff.1 h]; rfl
  · rw [decide_eq_true_iff.1 h]; rfl
  · cases h

end Lexis
