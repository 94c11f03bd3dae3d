import Lexis.Lexeme
import Lexis.Proofs.CharClass

/-!
# The legal lexemes of each kind

`Lexeme.Legal` lists, kind by kind, the texts that may stand in a token. `Lexeme.legal_cons_iff`
compares the list with how lexemes are read: a text is legal for a kind exactly when it does not
begin with white space, its first character takes in all the others, and its kind is that kind. So
no two kinds share a lexeme, and each text of the list is read as a whole. What would lengthen a
lexeme is likewise told by its kind (`TokenKind.takesIn`), and `Lexeme.Legal.takesIn_eq` says that
this is what its first character takes in.
-/

namespace Lexis

/-- Whether a token of the kind takes in a character that stands directly behind it: words take in
ASCII letters and digits, integers and minus signs take in ASCII digits. -/
def TokenKind.takesIn : TokenKind → Char → Bool
  | .upperIdentifier, c | .lowerIdentifier, c => c.isAlphanum
  | .keywordTrue, c | .keywordFalse, c | .keywordAs, c => c.isAlphanum
  | .literalInt, c | .minus, c => c.isDigit
  | _, _ => false

namespace Lexeme

/-- The words that are keywords. -/
def reservedWords : List (List Char) := ["as".toList, "True".toList, "False".toList]

/-- A letter of the given case, then ASCII letters and digits; no reserved word. -/
def IsIdentifier (letter : Char → Bool) (cs : List Char) : Prop :=
  (∃ first tail, cs = first :: tail ∧ letter first ∧ ∀ c ∈ tail, c.isAlphanum) ∧
    cs ∉ reservedWords

/-- The lexemes that a token of a kind may have. The reserved kinds have none, nor has the end of
the text. -/
def Legal : TokenKind → List Char → Prop
  | .comma, cs => cs = [',']
  | .minus, cs => cs = ['-']
  | .literalInt, cs => ∃ sign digits, cs = sign ++ digits ∧ (sign = [] ∨ sign = ['-']) ∧
      digits ≠ [] ∧ ∀ c ∈ digits, c.isDigit
  | .keywordAs, cs => cs = "as".toList
  | .keywordTrue, cs => cs = "True".toList
  | .keywordFalse, cs => cs = "False".toList
  | .lowerIdentifier, cs => IsIdentifier Char.isLower cs
  | .upperIdentifier, cs => IsIdentifier Char.isUpper cs
  | .error, cs => ∃ c, cs = [c] ∧ Unsupported c
  | .literalChar, _ | .literalString, _ | .endOfStream, _ => False

/-! ## Keywords -/

/-- The keyword table, over the characters of the word. -/
theorem keyword?_ofList (cs : List Char) : TokenKind.keyword? (String.ofList cs) =
    if cs = "as".toList then some .keywordAs
    else if cs = "True".toList then some .keywordTrue
    else if cs = "False".toList then some .keywordFalse
    else none := by
  rw [TokenKind.keyword?, ← String.ofList_toList (s := "as"),
    ← String.ofList_toList (s := "True"), ← String.ofList_toList (s := "False")]
  simp only [String.ofList_inj, String.toList_ofList]

/-- The keyword table lacks the words that are not reserved. -/
theorem keyword?_eq_none_iff {cs : List Char} :
    TokenKind.keyword? (String.ofList cs) = none ↔ cs ∉ reservedWords := by
  rw [keyword?_ofList]
  simp only [reservedWords, List.mem_cons, List.not_mem_nil, or_false, not_or]
  repeat' split
  all_goals simp_all

/-- The keyword table gives each kind of keyword its one legal lexeme. -/
theorem keyword?_eq_some_iff {cs : List Char} {k : TokenKind} :
    TokenKind.keyword? (String.ofList cs) = some k ↔ k.isKeyword ∧ Legal k cs := by
  rw [keyword?_ofList]
  constructor
  · intro h
    repeat' split at h
    all_goals cases h
    all_goals exact ⟨rfl, ‹_›⟩
  · rintro ⟨hk, h⟩
    cases k <;> cases hk <;> cases h <;> rfl

/-! ## How a lexeme is read -/

/-- Letters and digits are no white space. -/
theorem isSpace_eq_false_of_isAlphanum {c : Char} (h : c.isAlphanum) : isSpace c = false := by
  rw [Bool.eq_false_iff]
  intro hs
  rcases isSpace_iff.1 hs with rfl | rfl | rfl | rfl <;> cases h

/-- Unsupported characters are no white space. -/
theorem isSpace_eq_false_of_unsupported {c : Char} (h : Unsupported c) : isSpace c = false :=
  Bool.eq_false_iff.2 fun hs => h.1 (isSpace_iff_mem.1 hs)

section
variable {first : Char} {tail : List Char}

/-- A lexeme that begins with a digit is an integer. -/
theorem kind_of_isDigit (h : first.isDigit) : kind (first :: tail) = .literalInt := by
  simp only [kind, CharClass.of_of_holds (k := .digit) h]

/-- A word that begins with a lower-case letter is reserved or a lower-case identifier. -/
theorem kind_of_isLower (h : first.isLower) : kind (first :: tail) =
    (TokenKind.keyword? (String.ofList (first :: tail))).getD .lowerIdentifier := by
  simp only [kind, CharClass.of_of_holds (k := .lower) h]

/-- A word that begins with an upper-case letter is reserved or an upper-case identifier. -/
theorem kind_of_isUpper (h : first.isUpper) : kind (first :: tail) =
    (TokenKind.keyword? (String.ofList (first :: tail))).getD .upperIdentifier := by
  simp only [kind, CharClass.of_of_holds (k := .upper) h]

/-- A lexeme that begins with an unsupported character is an error. -/
theorem kind_of_unsupported (h : Unsupported first) : kind (first :: tail) = .error := by
  simp only [kind, CharClass.of_of_holds (k := .other) h]

/-- A lexeme that its first character goes through alone is a single character. -/
theorem tail_eq_nil (hnone : ∀ c, isContinuedBy first c = false)
    (htail : ∀ c ∈ tail, isContinuedBy first c) : tail = [] := by
  cases tail with
  | nil => rfl
  | cons c cs =>
    have hc := htail c List.mem_cons_self
    rw [hnone c] at hc
    cases hc

/-- An identifier begins with its letter, is read as a whole, and is not in the keyword table. -/
theorem IsIdentifier.read {letter : Char → Bool} (halpha : ∀ c, letter c → c.isAlpha)
    (h : IsIdentifier letter (first :: tail)) :
    letter first ∧ isSpace first = false ∧ (∀ c ∈ tail, isContinuedBy first c) ∧
      TokenKind.keyword? (String.ofList (first :: tail)) = none := by
  obtain ⟨⟨_, _, heq, hfirst, htail⟩, hres⟩ := h
  cases heq
  have ha := halpha first hfirst
  have hrun : ∀ c ∈ tail, isContinuedBy first c := by
    intro c hc
    rw [isContinuedBy_of_isAlpha ha]
    exact htail c hc
  exact ⟨hfirst, isSpace_eq_false_of_isAlphanum (isAlphanum_of_isAlpha ha), hrun,
    keyword?_eq_none_iff.2 hres⟩

/-- A legal lexeme is one that is read as a whole: it does not begin with white space, its first
character takes in all the others, and its kind is read off it. -/
theorem Legal.read {k : TokenKind} (h : Legal k (first :: tail)) :
    isSpace first = false ∧ (∀ c ∈ tail, isContinuedBy first c) ∧ kind (first :: tail) = k := by
  cases k with
  | comma | minus | keywordAs | keywordTrue | keywordFalse =>
    cases h
    exact ⟨rfl, List.all_eq_true.1 rfl, rfl⟩
  | literalInt =>
    obtain ⟨sign, digits, heq, rfl | rfl, hne, hdigits⟩ := h
    · obtain rfl : first :: tail = digits := heq
      have hfirst : first.isDigit := hdigits first List.mem_cons_self
      have hrun : ∀ c ∈ tail, isContinuedBy first c := by
        intro c hc
        rw [isContinuedBy_of_isDigit hfirst]
        exact hdigits c (List.mem_cons_of_mem _ hc)
      exact ⟨isSpace_eq_false_of_isAlphanum (isAlphanum_of_isDigit hfirst), hrun,
        kind_of_isDigit hfirst⟩
    · obtain ⟨rfl, rfl⟩ := List.cons.inj heq
      have hrun : ∀ c ∈ tail, isContinuedBy '-' c := by
        intro c hc
        rw [isContinuedBy_minus]
        exact hdigits c hc
      exact ⟨rfl, hrun, if_neg hne⟩
  | lowerIdentifier =>
    obtain ⟨hfirst, hspace, htail, hword⟩ := IsIdentifier.read (fun _ => isAlpha_of_isLower) h
    refine ⟨hspace, htail, ?_⟩
    rw [kind_of_isLower hfirst, hword]
    rfl
  | upperIdentifier =>
    obtain ⟨hfirst, hspace, htail, hword⟩ := IsIdentifier.read (fun _ => isAlpha_of_isUpper) h
    refine ⟨hspace, htail, ?_⟩
    rw [kind_of_isUpper hfirst, hword]
    rfl
  | error =>
    obtain ⟨c, heq, hc⟩ := h
    cases heq
    exact ⟨isSpace_eq_false_of_unsupported hc, by simp, kind_of_unsupported hc⟩
  | literalChar | literalString | endOfStream => cases h

/-- A word is legal for the kind that the keyword table or, failing that, its case gives it. -/
theorem legal_getD {letter : Char → Bool} {k : TokenKind}
    (hk : ∀ cs, Legal k cs ↔ IsIdentifier letter cs) (hfirst : letter first)
    (htail : ∀ c ∈ tail, c.isAlphanum) :
    Legal ((TokenKind.keyword? (String.ofList (first :: tail))).getD k) (first :: tail) := by
  cases hw : TokenKind.keyword? (String.ofList (first :: tail)) with
  | some word => exact (keyword?_eq_some_iff.1 hw).2
  | none => exact (hk _).2 ⟨⟨first, tail, rfl, hfirst, htail⟩, keyword?_eq_none_iff.1 hw⟩

/-- A text that its first character takes in, and that does not begin with white space, is legal
for its kind. -/
theorem legal_kind (hspace : isSpace first = false) (htail : ∀ c ∈ tail, isContinuedBy first c) :
    Legal (kind (first :: tail)) (first :: tail) := by
  have hfirst := CharClass.holds_of first
  have hword : ∀ c ∈ tail, c.isAlphanum := by
    intro c hc
    exact isAlphanum_of_isContinuedBy (htail c hc)
  cases hc : CharClass.of first <;> rw [hc] at hfirst
  case newline | blank => simp [isSpace, hc, CharClass.isSpace] at hspace
  case comma =>
    cases hfirst
    obtain rfl := tail_eq_nil isContinuedBy_comma htail
    rfl
  case minus =>
    cases hfirst
    by_cases hnil : tail = []
    · subst hnil
      rfl
    · rw [show kind ('-' :: tail) = .literalInt from if_neg hnil]
      refine ⟨['-'], tail, rfl, .inr rfl, hnil, ?_⟩
      intro c hc
      rw [← isContinuedBy_minus]
      exact htail c hc
  case digit =>
    rw [kind_of_isDigit hfirst]
    refine ⟨[], first :: tail, rfl, .inl rfl, List.cons_ne_nil _ _, ?_⟩
    intro c hc
    rcases List.mem_cons.1 hc with rfl | hc
    · exact hfirst
    · rw [← isContinuedBy_of_isDigit hfirst]
      exact htail c hc
  case lower =>
    rw [kind_of_isLower hfirst]
    exact legal_getD (fun _ => Iff.rfl) hfirst hword
  case upper =>
    rw [kind_of_isUpper hfirst]
    exact legal_getD (fun _ => Iff.rfl) hfirst hword
  case other =>
    obtain rfl := tail_eq_nil (isContinuedBy_of_unsupported hfirst) htail
    rw [kind_of_unsupported hfirst]
    exact ⟨first, rfl, hfirst⟩

/-- The list of legal lexemes is what reading makes of a text. -/
theorem legal_cons_iff {k : TokenKind} : Legal k (first :: tail) ↔
    isSpace first = false ∧ (∀ c ∈ tail, isContinuedBy first c) ∧ kind (first :: tail) = k := by
  constructor
  · exact Legal.read
  · rintro ⟨hspace, htail, rfl⟩
    exact legal_kind hspace htail

/-- No legal lexeme is empty. -/
theorem Legal.exists_cons {k : TokenKind} {cs : List Char} (h : Legal k cs) :
    ∃ first tail, cs = first :: tail := by
  cases cs with
  | cons first tail => exact ⟨first, tail, rfl⟩
  | nil =>
    cases k with
    | literalInt =>
      obtain ⟨sign, digits, heq, -, hne, -⟩ := h
      exact absurd (List.append_eq_nil_iff.1 heq.symm).2 hne
    | _ => simp [Legal, IsIdentifier] at h

/-- What would lengthen a token is what the first character of its lexeme takes in. -/
theorem Legal.takesIn_eq {k : TokenKind} (h : Legal k (first :: tail)) (c : Char) :
    k.takesIn c = isContinuedBy first c := by
  cases k with
  | comma => cases h; rfl
  | minus => cases h; exact (isContinuedBy_minus c).symm
  | keywordAs | keywordTrue | keywordFalse =>
    cases h
    exact (isContinuedBy_of_isAlpha rfl c).symm
  | literalInt =>
    obtain ⟨sign, digits, heq, rfl | rfl, -, hdigits⟩ := h
    · obtain rfl : first :: tail = digits := heq
      exact (isContinuedBy_of_isDigit (hdigits first List.mem_cons_self) c).symm
    · obtain ⟨rfl, -⟩ := List.cons.inj heq
      exact (isContinuedBy_minus c).symm
  | lowerIdentifier =>
    have hfirst := (IsIdentifier.read (fun _ => isAlpha_of_isLower) h).1
    exact (isContinuedBy_of_isAlpha (isAlpha_of_isLower hfirst) c).symm
  | upperIdentifier =>
    have hfirst := (IsIdentifier.read (fun _ => isAlpha_of_isUpper) h).1
    exact (isContinuedBy_of_isAlpha (isAlpha_of_isUpper hfirst) c).symm
  | error =>
    obtain ⟨_, heq, hc⟩ := h
    cases heq
    exact (isContinuedBy_of_unsupported hc c).symm
  | literalChar | literalString | endOfStream => cases h

end

end Lexeme

end Lexis
