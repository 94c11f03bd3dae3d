import Lexis.Position
import Lexis.Proofs.CharClass

/-!
# Positions by counting

Reading keeps line and column up to date one character at a time. `Position.counted` counts them
from scratch over the text in front of an index. One step over a character goes from the place of
its index to the place behind it (`Position.next_counted`), so going over a stretch of the text goes
from the place of its first index to the place behind its last one (`Position.after_counted`).
-/

namespace Lexis.Position

/-- The place of index `i` in a text: its line is one more than the number of line feeds in front
of the index, its column one more than the number of characters behind the last of them. -/
def counted (text : List Char) (i : Nat) : Position where
  line := 1 + (text.take i).count '\n'
  column := 1 + ((text.take i).reverse.takeWhile (· ≠ '\n')).length
  offset := i

/-- The position is a place of the text: its line and column are those of its offset. -/
structure Counts (p : Position) (text : List Char) : Prop where
  offset_le : p.offset ≤ text.length
  eq_counted : p = counted text p.offset

/-- The beginning of a text is the place of its first index. -/
theorem counted_zero (text : List Char) : counted text 0 = origin := rfl

/-- A step over a character goes from its place to the place behind it. -/
theorem next_counted {text : List Char} {i : Nat} {c : Char} (hc : text[i]? = some c) :
    (counted text i).next c = counted text (i + 1) := by
  have htake : text.take (i + 1) = text.take i ++ [c] := by rw [List.take_add_one, hc]; rfl
  unfold next
  split
  · next hclass =>
    obtain rfl : c = '\n' := CharClass.of_eq_iff.1 hclass
    simp [counted, htake]
    omega
  · next hclass =>
    have hne : c ≠ '\n' := by
      intro h
      exact hclass (CharClass.of_eq_iff.2 h)
    simp [counted, htake, hne]
    omega

/-- Going over a stretch of a text goes from its place to the place behind it. -/
theorem after_counted {text cs rest : List Char} {i : Nat} (h : text.drop i = cs ++ rest) :
    (counted text i).after cs = counted text (i + cs.length) := by
  induction cs generalizing i with
  | nil => rfl
  | cons c cs ih =>
    have hc : text[i]? = some c := by rw [← List.head?_drop, h]; rfl
    have hdrop : text.drop (i + 1) = cs ++ rest := by rw [← List.tail_drop, h]; rfl
    rw [after_cons, next_counted hc, ih hdrop, List.length_cons, Nat.add_assoc, Nat.add_comm 1]

/-- Going over the front of a text comes to the place behind it, whatever follows. -/
theorem after_origin (front rest : List Char) :
    origin.after front = counted (front ++ rest) front.length := by
  have hdrop : (front ++ rest).drop 0 = front ++ rest := rfl
  rw [← counted_zero (front ++ rest), after_counted hdrop, Nat.zero_add]

/-- Where going over the front of a text comes to is a place of the text. -/
theorem counts_after_origin (front rest : List Char) :
    (origin.after front).Counts (front ++ rest) := by
  rw [after_origin front rest]
  exact ⟨by simp [counted], rfl⟩

end Lexis.Position
