import Lexis.Proofs.Text.Cut

/-!
# Reading numbers back

Numbers are printed by their digits. `numeral?` reads digits in a base up to sixteen, with small or
capital letters for ten to fifteen, and gets back every number that was printed
(`numeral?_toDigits`). A decimal number that stands in front of something else than a digit is read
as a whole (`toDigits_append_inj`).
-/

namespace Lexis.Text

/-- The value of a digit of a base up to sixteen. -/
def digitValue? (c : Char) : Option Nat :=
  if c.isDigit then some (c.toNat - '0'.toNat)
  else if 'a' ≤ c ∧ c ≤ 'f' then some (10 + (c.toNat - 'a'.toNat))
  else if 'A' ≤ c ∧ c ≤ 'F' then some (10 + (c.toNat - 'A'.toNat))
  else none

/-- The number that digits spell in a base. -/
def numeral? (base : Nat) (digits : List Char) : Option Nat :=
  digits.foldlM (fun n c => (digitValue? c).map (base * n + ·)) 0

/-- Every digit has its value. -/
theorem digitValue?_digitChar : ∀ d < 16, digitValue? (Nat.digitChar d) = some d := by decide

/-- A numeral is read digit by digit: behind a part of it the value of that part is carried on. -/
theorem numeral?_append (base : Nat) (as bs : List Char) : numeral? base (as ++ bs) =
    (numeral? base as).bind fun n =>
      bs.foldlM (fun n c => (digitValue? c).map (base * n + ·)) n := by
  rw [numeral?, List.foldlM_append]
  rfl

/-- The number that was printed is read back. -/
theorem numeral?_toDigits {base : Nat} (hone : 1 < base) (hbase : base ≤ 16) (n : Nat) :
    numeral? base (Nat.toDigits base n) = some n := by
  induction n using Nat.base_induction base hone with
  | single d hd =>
    have hvalue := digitValue?_digitChar d (by omega)
    rw [Nat.toDigits_of_lt_base hd]
    simp [numeral?, hvalue]
  | digit n d hd hn ih =>
    have hvalue := digitValue?_digitChar d (by omega)
    rw [← Nat.toDigits_append_toDigits hone hn hd, Nat.toDigits_of_lt_base hd, numeral?_append, ih]
    simp [hvalue]

/-- A number is printed in digits of its base. -/
theorem exists_digitChar_of_mem_toDigits {base n : Nat} {c : Char} (hone : 1 < base)
    (h : c ∈ Nat.toDigits base n) : ∃ d < base, c = Nat.digitChar d := by
  induction n using Nat.base_induction base hone with
  | single d hd =>
    rw [Nat.toDigits_of_lt_base hd] at h
    exact ⟨d, hd, List.mem_singleton.1 h⟩
  | digit n d hd hn ih =>
    rw [← Nat.toDigits_append_toDigits hone hn hd, Nat.toDigits_of_lt_base hd] at h
    rcases List.mem_append.1 h with h | h
    · exact ih h
    · exact ⟨d, hd, List.mem_singleton.1 h⟩

/-- Only zero is printed with a zero in front. -/
theorem head?_toDigits_ne_zero {base n : Nat} (hone : 1 < base) (hbase : base ≤ 16) (hn : n ≠ 0) :
    (Nat.toDigits base n).head? ≠ some '0' := by
  induction n using Nat.base_induction base hone with
  | single d hd =>
    have hdigit : ∀ d < 16, d ≠ 0 → some (Nat.digitChar d) ≠ some '0' := by decide
    rw [Nat.toDigits_of_lt_base hd]
    exact hdigit d (by omega) hn
  | digit m d hd hm ih =>
    have hsome : (Nat.toDigits base m).head?.isSome := by simp [Nat.toDigits_ne_nil]
    rw [← Nat.toDigits_append_toDigits hone hm hd, List.head?_append, Option.or_of_isSome hsome]
    exact ih (Nat.ne_of_gt hm)

/-- Decimal numbers are printed in decimal digits. -/
theorem isDigit_of_mem_toDigits {n : Nat} {c : Char} (h : c ∈ Nat.toDigits 10 n) : c.isDigit :=
  Nat.isDigit_of_mem_toDigits (by decide) (by decide) h

/-- Numbers stay in their line. -/
theorem lineFeed_not_mem_toDigits {base : Nat} (hone : 1 < base) (hbase : base ≤ 16) (n : Nat) :
    '\n' ∉ Nat.toDigits base n := by
  intro hmem
  obtain ⟨d, hd, heq⟩ := exists_digitChar_of_mem_toDigits hone hmem
  have hne : ∀ d < 16, '\n' ≠ Nat.digitChar d := by decide
  exact hne d (by omega) heq

/-- A number ends here: it does not go on with a digit. -/
def NumberEnds (cs : List Char) : Prop := ∀ c ∈ cs.head?, c.isDigit = false

/-- A number ends in front of a character that is no digit. -/
theorem numberEnds_cons {c : Char} {cs : List Char} (h : c.isDigit = false) :
    NumberEnds (c :: cs) := by
  intro d hd
  cases hd
  exact h

/-- Decimal numbers in front of something else than digits are read as a whole. -/
theorem toDigits_append_inj {m n : Nat} {xs ys : List Char} (hxs : NumberEnds xs)
    (hys : NumberEnds ys) (h : Nat.toDigits 10 m ++ xs = Nat.toDigits 10 n ++ ys) :
    m = n ∧ xs = ys := by
  obtain ⟨hdigits, hrest⟩ := append_inj_of_stop (fun _ => isDigit_of_mem_toDigits) hxs
    (fun _ => isDigit_of_mem_toDigits) hys h
  have hnumeral := congrArg (numeral? 10) hdigits
  rw [numeral?_toDigits (by decide) (by decide), numeral?_toDigits (by decide) (by decide)]
    at hnumeral
  exact ⟨Option.some.inj hnumeral, hrest⟩

end Lexis.Text
