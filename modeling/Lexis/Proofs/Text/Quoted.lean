import Lexis.Text.Quoted
import Lexis.Proofs.Text.Digits
import Lexis.Proofs.Text.Pieces

/-!
# Reading quoted text back

`Quoted.decodeChar?` reads one character of a quoted text, escaped or not, and finds where the next
one begins. It reads what `Quoted.encodeChar` wrote, whatever stands behind it and whichever
characters are to be hidden (`decodeChar?_encodeChar`), so a quoted text ends at its closing quote
and nowhere else: `quote_append_inj`.
-/

namespace Lexis.Text

namespace Quoted

/-- The character that a backslash in front of a letter stands for. -/
def unescape? (letter : Char) : Option Char :=
  if letter = '0' then some '\x00'
  else if letter = 't' then some '\t'
  else if letter = 'r' then some '\r'
  else if letter = 'n' then some '\n'
  else if letter = '"' then some '"'
  else if letter = '\\' then some '\\'
  else none

/-- Reads what stands behind a backslash: a code point between braces, or a letter. -/
def decodeEscape? : List Char → Option (Char × List Char)
  | 'u' :: '\x7b' :: rest => do
    let code ← numeral? 16 (rest.takeWhile (· ≠ '\x7d'))
    some (Char.ofNat code, (rest.dropWhile (· ≠ '\x7d')).tail)
  | letter :: rest => (unescape? letter).map (·, rest)
  | [] => none

/-- Reads one character of a quoted text, unless the closing quote comes first. -/
def decodeChar? : List Char → Option (Char × List Char)
  | [] => none
  | c :: rest =>
    if c = '"' then none else if c = '\\' then decodeEscape? rest else some (c, rest)

/-- A code point is read back. -/
theorem decodeEscape?_codePoint (c : Char) (rest : List Char) :
    decodeChar? (codePoint c ++ rest) = some (c, rest) := by
  have hrun : ∀ d ∈ Nat.toDigits 16 c.toNat, decide (d ≠ '\x7d') := by
    intro d hd
    obtain ⟨value, hvalue, rfl⟩ := exists_digitChar_of_mem_toDigits (by decide) hd
    have hne : ∀ value < 16, decide (Nat.digitChar value ≠ '\x7d') := by decide
    exact hne value hvalue
  have hstop : ∀ d ∈ ('\x7d' :: rest).head?, decide (d ≠ '\x7d') = false := by simp
  have htext : codePoint c ++ rest =
      '\\' :: 'u' :: '\x7b' :: (Nat.toDigits 16 c.toNat ++ '\x7d' :: rest) := by simp [codePoint]
  rw [htext, decodeChar?, if_neg (by decide), if_pos rfl, decodeEscape?,
    takeWhile_append_of_stop hrun hstop, dropWhile_append_of_stop hrun hstop,
    numeral?_toDigits (by decide) (by decide)]
  simp

/-- A written character is read back, whichever characters are hidden. -/
theorem decodeChar?_encodeChar (hidden : Char → Bool) (c : Char) (rest : List Char) :
    decodeChar? (encodeChar hidden c ++ rest) = some (c, rest) := by
  unfold encodeChar
  split
  · next h => subst h; rfl
  split
  · next h => subst h; rfl
  split
  · next h => subst h; rfl
  split
  · next h => subst h; rfl
  split
  · next h => subst h; rfl
  split
  · next h => subst h; rfl
  split
  · exact decodeEscape?_codePoint c rest
  · next hquote hbackslash _ =>
    rw [List.singleton_append, decodeChar?, if_neg hquote, if_neg hbackslash]

/-- A written text is read back up to its closing quote. -/
theorem readMany_encode (hidden : Char → Bool) (text rest : List Char) :
    readMany decodeChar? (encode hidden text ++ '"' :: rest) = (text, '"' :: rest) :=
  readMany_flatMap (decodeChar?_encodeChar hidden) text rfl

/-- A written text ends at the first quote that is no written character. -/
theorem encode_append_inj {hidden : Char → Bool} {as bs xs ys : List Char}
    (h : encode hidden as ++ '"' :: xs = encode hidden bs ++ '"' :: ys) : as = bs ∧ xs = ys := by
  have hread := congrArg (readMany decodeChar?) h
  rw [readMany_encode, readMany_encode] at hread
  cases hread
  exact ⟨rfl, rfl⟩

/-- No code point is written with a line feed. -/
theorem lineFeed_not_mem_codePoint (c : Char) : '\n' ∉ codePoint c := by
  have hdigits : '\n' ∉ Nat.toDigits 16 c.toNat :=
    lineFeed_not_mem_toDigits (by decide) (by decide) _
  simp [codePoint, hdigits]

/-- No character is written with a line feed. -/
theorem lineFeed_not_mem_encodeChar (hidden : Char → Bool) (c : Char) :
    '\n' ∉ encodeChar hidden c := by
  unfold encodeChar
  split
  · decide
  split
  · decide
  split
  · decide
  split
  · decide
  split
  · decide
  split
  · decide
  split
  · exact lineFeed_not_mem_codePoint c
  · next hlineFeed _ _ _ => simpa using Ne.symm hlineFeed

/-- A quoted text stays in its line. -/
theorem lineFeed_not_mem_encode (hidden : Char → Bool) (text : List Char) :
    '\n' ∉ encode hidden text := by
  intro hmem
  obtain ⟨c, -, hc⟩ := List.mem_flatMap.1 hmem
  exact lineFeed_not_mem_encodeChar hidden c hc

end Quoted

/-- Quoted texts end where they end, whatever stands behind them. -/
theorem quote_append_inj {hidden : Char → Bool} {s t : String} {xs ys : List Char}
    (h : (quote hidden s).toList ++ xs = (quote hidden t).toList ++ ys) : s = t ∧ xs = ys := by
  simp only [quote, String.toList_ofList, List.cons_append, List.append_assoc, List.cons.injEq,
    true_and, List.nil_append] at h
  obtain ⟨htext, hrest⟩ := Quoted.encode_append_inj h
  exact ⟨String.toList_inj.1 htext, hrest⟩

end Lexis.Text
