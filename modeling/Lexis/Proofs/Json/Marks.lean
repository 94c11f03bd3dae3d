import Lexis.Json
import Lexis.Proofs.Text.Digits
import Lexis.Proofs.Text.Pieces

/-!
# The marks of a JSON text

A JSON text is a sequence of marks: brackets, commas, colons, strings and numbers, with white space
between them. `Json.readMarks` reads them by the grammar of JSON, as far as values without
fractions, signs, truth values and nulls need it: with every escape that a string may have,
surrogate pairs included, without raw control characters in strings, and without zeros in front of
numbers. A printed value is read as the marks of the value (`Json.readsAs_print`).
-/

namespace Lexis.Json

open Text (NumberEnds numberEnds_cons)

/-- The smallest parts of a JSON text that mean something. -/
inductive Mark where
  | openArray
  | closeArray
  | openObject
  | closeObject
  | comma
  | colon
  | str (value : String)
  | num (value : Nat)
  deriving DecidableEq, Repr

/-! ## Characters of strings -/

/-- The character that a backslash in front of a letter stands for. -/
def unescape? (letter : Char) : Option Char :=
  if letter = '"' then some '"'
  else if letter = '\\' then some '\\'
  else if letter = '/' then some '/'
  else if letter = 'b' then some '\x08'
  else if letter = 'f' then some '\x0c'
  else if letter = 'n' then some '\n'
  else if letter = 'r' then some '\r'
  else if letter = 't' then some '\t'
  else none

/-- Reads four hexadecimal digits. -/
def readUnit? : List Char → Option (Nat × List Char)
  | a :: b :: c :: d :: rest => (Text.numeral? 16 [a, b, c, d]).map (·, rest)
  | _ => none

/-- Reads the second half of a surrogate pair. -/
def readLowSurrogate? (high : Nat) : List Char → Option (Char × List Char)
  | '\\' :: 'u' :: cs => do
    let (low, rest) ← readUnit? cs
    if 0xdc00 ≤ low ∧ low < 0xe000 then
      some (Char.ofNat (0x10000 + 0x400 * (high - 0xd800) + (low - 0xdc00)), rest)
    else none
  | _ => none

/-- Reads a character by its code, or by a surrogate pair. -/
def readCode? (cs : List Char) : Option (Char × List Char) := do
  let (unit, rest) ← readUnit? cs
  if unit < 0xd800 ∨ 0xe000 ≤ unit then some (Char.ofNat unit, rest)
  else if unit < 0xdc00 then readLowSurrogate? unit rest
  else none

/-- Reads what stands behind a backslash. -/
def readEscape? : List Char → Option (Char × List Char)
  | [] => none
  | letter :: rest =>
    if letter = 'u' then readCode? rest else (unescape? letter).map (·, rest)

/-- Reads one character of a string, unless the closing quote comes first. -/
def readChar? : List Char → Option (Char × List Char)
  | [] => none
  | c :: rest =>
    if c = '"' then none
    else if c = '\\' then readEscape? rest
    else if c.toNat < 0x20 then none
    else some (c, rest)

/-- A control character is read back from its four digits. -/
theorem readChar?_escapeCode {c : Char} (hc : c.toNat < 0x20) (rest : List Char) :
    readChar? (escapeCode c ++ rest) = some (c, rest) := by
  have hhigh := Text.digitValue?_digitChar (c.toNat / 16) (by omega)
  have hlow := Text.digitValue?_digitChar (c.toNat % 16) (by omega)
  have hzero : Text.digitValue? '0' = some 0 := by decide
  have hnumeral : Text.numeral? 16
      ['0', '0', Nat.digitChar (c.toNat / 16), Nat.digitChar (c.toNat % 16)] = some c.toNat := by
    simp only [Text.numeral?, List.foldlM_cons, List.foldlM_nil, hhigh, hlow, hzero,
      Option.map_some, Option.bind_eq_bind, Option.bind_some, Option.pure_def, Option.some.injEq]
    omega
  have hunit : c.toNat < 0xd800 ∨ 0xe000 ≤ c.toNat := by omega
  have hcode : readCode? ('0' :: '0' :: Nat.digitChar (c.toNat / 16) ::
      Nat.digitChar (c.toNat % 16) :: rest) = some (c, rest) := by
    simp [readCode?, readUnit?, hnumeral, hunit]
  exact hcode

/-- A written character is read back. -/
theorem readChar?_escapeChar (c : Char) (rest : List Char) :
    readChar? (escapeChar c ++ rest) = some (c, rest) := by
  unfold escapeChar
  split
  · next h => subst h; rfl
  split
  · next h => subst h; rfl
  split
  · next h => subst h; rfl
  split
  · next h => subst h; rfl
  split
  · next h => subst h; rfl
  split
  · next h => subst h; rfl
  split
  · next h => subst h; rfl
  split
  · next h => exact readChar?_escapeCode h rest
  · next hquote hbackslash _ _ _ _ _ hcode =>
    rw [List.singleton_append, readChar?, if_neg hquote, if_neg hbackslash, if_neg hcode]

/-! ## Marks -/

/-- Reads a string behind its opening quote. -/
def readString? (cs : List Char) : Option (String × List Char) :=
  match readMany readChar? cs with
  | (text, '"' :: rest) => some (String.ofList text, rest)
  | _ => none

/-- Reads a number in front of something else than a digit. -/
def readNumber? (cs : List Char) : Option (Nat × List Char) :=
  let digits := cs.takeWhile Char.isDigit
  if digits.head? = some '0' ∧ digits ≠ ['0'] then none
  else (Text.numeral? 10 digits).map (·, cs.dropWhile Char.isDigit)

/-- The white space that may stand between marks. -/
def isBlank (c : Char) : Bool := c = ' ' || c = '\t' || c = '\n' || c = '\r'

/-- The marks of one character. -/
def punctuation? (c : Char) : Option Mark :=
  if c = '[' then some .openArray
  else if c = ']' then some .closeArray
  else if c = '\x7b' then some .openObject
  else if c = '\x7d' then some .closeObject
  else if c = ',' then some .comma
  else if c = ':' then some .colon
  else none

/-- Reads one mark, or one character of white space, which is none. -/
def readMark? : List Char → Option (Option Mark × List Char)
  | [] => none
  | c :: rest =>
    if isBlank c then some (none, rest)
    else if c = '"' then (readString? rest).map fun (s, rest) => (some (.str s), rest)
    else if c.isDigit then (readNumber? (c :: rest)).map fun (n, rest) => (some (.num n), rest)
    else (punctuation? c).map fun m => (some m, rest)

/-- Reads marks up to something that is none, and gives what is left. -/
def readMarks (cs : List Char) : List Mark × List Char :=
  ((readMany readMark? cs).1.filterMap id, (readMany readMark? cs).2)

/-- A string is read back. -/
theorem readMark?_quote (s : String) (rest : List Char) :
    readMark? (quote s ++ rest) = some (some (.str s), rest) := by
  have hstop : readChar? ('"' :: rest) = none := rfl
  have hmany := readMany_flatMap readChar?_escapeChar s.toList hstop
  have hstring : readString? (s.toList.flatMap escapeChar ++ '"' :: rest) = some (s, rest) := by
    rw [readString?, hmany]
    simp
  have htext : quote s ++ rest = '"' :: (s.toList.flatMap escapeChar ++ '"' :: rest) := by
    simp [quote]
  rw [htext, readMark?, if_neg (by decide), if_pos rfl, hstring]
  rfl

/-- A digit is no layout between marks. -/
theorem not_isBlank_of_isDigit {c : Char} (hc : c.isDigit) : ¬ isBlank c := by
  intro hblank
  simp only [isBlank, Bool.or_eq_true, decide_eq_true_eq] at hblank
  rcases hblank with ((rfl | rfl) | rfl) | rfl <;> cases hc

/-- A number in front of something else than a digit is read back. -/
theorem readMark?_toDigits (n : Nat) {rest : List Char} (hrest : NumberEnds rest) :
    readMark? (Nat.toDigits 10 n ++ rest) = some (some (.num n), rest) := by
  have hrun : ∀ c ∈ Nat.toDigits 10 n, c.isDigit := fun _ => Text.isDigit_of_mem_toDigits
  have hzero : ¬ ((Nat.toDigits 10 n).head? = some '0' ∧ Nat.toDigits 10 n ≠ ['0']) := by
    rintro ⟨hhead, hne⟩
    rcases Nat.eq_zero_or_pos n with rfl | hn
    · exact hne rfl
    · exact Text.head?_toDigits_ne_zero (by decide) (by decide) (Nat.ne_of_gt hn) hhead
  have hnumber : readNumber? (Nat.toDigits 10 n ++ rest) = some (n, rest) := by
    rw [readNumber?, takeWhile_append_of_stop hrun hrest, dropWhile_append_of_stop hrun hrest,
      if_neg hzero, Text.numeral?_toDigits (by decide) (by decide)]
    rfl
  cases hdigits : Nat.toDigits 10 n with
  | nil => exact absurd hdigits Nat.toDigits_ne_nil
  | cons c digits =>
    have hc : c.isDigit := hrun c (by simp [hdigits])
    have hquote : c ≠ '"' := by
      rintro rfl
      cases hc
    rw [hdigits] at hnumber
    rw [List.cons_append] at hnumber ⊢
    rw [readMark?, if_neg (not_isBlank_of_isDigit hc), if_neg hquote, if_pos hc, hnumber]
    rfl

/-! ## Reading in front of something -/

/-- In front of `rest`, the text is read as the marks and the reading goes on with `rest`. -/
def ReadsAs (text : List Char) (marks : List Mark) (rest : List Char) : Prop :=
  readMarks (text ++ rest) = (marks ++ (readMarks rest).1, (readMarks rest).2)

namespace ReadsAs

variable {text text' rest : List Char} {ms ms' : List Mark}

/-- No text has no marks. -/
theorem nil : ReadsAs [] [] rest := rfl

/-- Texts behind one another are read one after the other. -/
theorem append (h : ReadsAs text ms (text' ++ rest)) (h' : ReadsAs text' ms' rest) :
    ReadsAs (text ++ text') (ms ++ ms') rest := by
  unfold ReadsAs at *
  rw [List.append_assoc, h, h', List.append_assoc]

/-- A piece that is read as one mark, or as white space, in front of a text. -/
theorem piece {m : Option Mark} (piece : List Char) (hne : piece ≠ [])
    (hread : readMark? (piece ++ (text ++ rest)) = some (m, text ++ rest))
    (h : ReadsAs text ms rest) : ReadsAs (piece ++ text) (m.toList ++ ms) rest := by
  have hmany : readMarks (piece ++ (text ++ rest)) =
      (m.toList ++ (readMarks (text ++ rest)).1, (readMarks (text ++ rest)).2) := by
    rw [readMarks, readMany_of_some hread (length_lt_length_append hne _)]
    cases m <;> rfl
  unfold ReadsAs at *
  rw [List.append_assoc, hmany, h, List.append_assoc]

/-- A blank in front of a text has no mark. -/
theorem blank {c : Char} (hc : isBlank c) (h : ReadsAs text ms rest) :
    ReadsAs (c :: text) ms rest := by
  refine piece (m := none) [c] (List.cons_ne_nil _ _) ?_ h
  rw [List.singleton_append, readMark?, if_pos hc]

/-- A line break and the indentation behind it are layout. -/
theorem newline (depth : Nat) (h : ReadsAs text ms rest) :
    ReadsAs (Json.newline depth ++ text) ms rest := by
  have hspaces : ∀ n, ReadsAs (List.replicate n ' ' ++ text) ms rest := by
    intro n
    induction n with
    | zero => exact h
    | succ n ih => exact blank rfl ih
  exact blank rfl (hspaces _)

/-- A single character that is a mark is read as this mark. -/
theorem punctuation {c : Char} {m : Mark} (hc : readMark? (c :: (text ++ rest)) =
    some (some m, text ++ rest)) (h : ReadsAs text ms rest) : ReadsAs (c :: text) (m :: ms) rest :=
  piece [c] (List.cons_ne_nil _ _) hc h

/-- A quoted string is read as the string, whatever follows. -/
theorem quote (s : String) (h : ReadsAs text ms rest) :
    ReadsAs (Json.quote s ++ text) (.str s :: ms) rest :=
  piece (Json.quote s) (List.cons_ne_nil _ _) (readMark?_quote s _) h

/-- A number is read as a whole if no digit follows. -/
theorem number (n : Nat) (hrest : NumberEnds rest) :
    ReadsAs (Nat.toDigits 10 n) [.num n] rest := by
  have hread : readMark? (Nat.toDigits 10 n ++ ([] ++ rest)) = some (some (.num n), [] ++ rest) :=
    readMark?_toDigits n hrest
  rw [← List.append_nil (Nat.toDigits 10 n)]
  exact piece _ Nat.toDigits_ne_nil hread nil

end ReadsAs

/-! ## The marks of a value -/

mutual

/-- The marks of a value. -/
def marks : Json → List Mark
  | .num n => [.num n]
  | .str s => [.str s]
  | .arr [] => [.openArray, .closeArray]
  | .arr (item :: items) => .openArray :: (item.marks ++ (itemMarks items ++ [.closeArray]))
  | .obj [] => [.openObject, .closeObject]
  | .obj ((key, value) :: members) =>
    .openObject :: .str key :: .colon ::
      (value.marks ++ (memberMarks members ++ [.closeObject]))

/-- The marks of the elements behind the first one. -/
def itemMarks : List Json → List Mark
  | [] => []
  | item :: items => .comma :: (item.marks ++ itemMarks items)

/-- The marks of the members behind the first one. -/
def memberMarks : List (String × Json) → List Mark
  | [] => []
  | (key, value) :: members =>
    .comma :: .str key :: .colon :: (value.marks ++ memberMarks members)

end

section
variable {rest : List Char}

/-- No digit follows where a line breaks. -/
theorem numberEnds_newline (depth : Nat) : NumberEnds (newline depth ++ rest) := numberEnds_cons rfl

/-- Behind an item of an array no digit follows: there is a comma, or what follows the array. -/
theorem numberEnds_printItems (depth : Nat) (items : List Json) (h : NumberEnds rest) :
    NumberEnds (printItems depth items ++ rest) := by
  cases items with
  | nil => exact h
  | cons item items => exact numberEnds_cons rfl

/-- Behind a member of an object no digit follows: there is a comma, or what follows the object. -/
theorem numberEnds_printMembers (depth : Nat) (members : List (String × Json))
    (h : NumberEnds rest) : NumberEnds (printMembers depth members ++ rest) := by
  cases members with
  | nil => exact h
  | cons member members => exact numberEnds_cons rfl

end

mutual

/-- A printed value is read as the marks of the value. -/
theorem readsAs_print : ∀ (v : Json) (depth : Nat) {rest : List Char}, NumberEnds rest →
    ReadsAs (print depth v) v.marks rest
  | .num n, _, _, hrest => .number n hrest
  | .str s, depth, _, _ => by
    rw [print, ← List.append_nil (quote s)]
    exact .quote s .nil
  | .arr [], _, _, _ => .punctuation rfl (.punctuation rfl .nil)
  | .arr (item :: items), depth, _, _ => by
    simp only [print, marks, List.cons_append, List.append_assoc]
    refine .punctuation rfl (.newline _ (.append (readsAs_print item _ ?_) ?_))
    · rw [List.append_assoc, List.append_assoc]
      exact numberEnds_printItems _ items (numberEnds_newline _)
    · refine .append (readsAs_printItems items _ ?_) (.newline _ (.punctuation rfl .nil))
      rw [List.append_assoc]
      exact numberEnds_newline _
  | .obj [], _, _, _ => .punctuation rfl (.punctuation rfl .nil)
  | .obj ((key, value) :: members), depth, _, _ => by
    simp only [print, marks, List.cons_append, List.append_assoc, List.nil_append]
    refine .punctuation rfl (.newline _ (.quote key (.punctuation rfl (.blank rfl
      (.append (readsAs_print value _ ?_) ?_)))))
    · rw [List.append_assoc, List.append_assoc]
      exact numberEnds_printMembers _ members (numberEnds_newline _)
    · refine .append (readsAs_printMembers members _ ?_) (.newline _ (.punctuation rfl .nil))
      rw [List.append_assoc]
      exact numberEnds_newline _

/-- The items of an array behind the first one are read as their marks, each with its comma. -/
theorem readsAs_printItems : ∀ (items : List Json) (depth : Nat) {rest : List Char},
    NumberEnds rest → ReadsAs (printItems depth items) (itemMarks items) rest
  | [], _, _, _ => .nil
  | item :: items, depth, _, hrest => by
    simp only [printItems, itemMarks, List.cons_append, List.append_assoc]
    exact .punctuation rfl (.newline _ (.append
      (readsAs_print item depth (numberEnds_printItems depth items hrest))
      (readsAs_printItems items depth hrest)))

/-- The members of an object behind the first one are read as their marks, each with its comma. -/
theorem readsAs_printMembers : ∀ (members : List (String × Json)) (depth : Nat)
    {rest : List Char}, NumberEnds rest →
    ReadsAs (printMembers depth members) (memberMarks members) rest
  | [], _, _, _ => .nil
  | (key, value) :: members, depth, _, hrest => by
    simp only [printMembers, memberMarks, List.cons_append, List.append_assoc, List.nil_append]
    exact .punctuation rfl (.newline _ (.quote key (.punctuation rfl (.blank rfl (.append
      (readsAs_print value depth (numberEnds_printMembers depth members hrest))
      (readsAs_printMembers members depth hrest))))))

end

end Lexis.Json
