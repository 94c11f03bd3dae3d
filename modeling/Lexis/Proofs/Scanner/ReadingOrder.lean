import Lexis.Proofs.Location.Pairs
import Lexis.Proofs.Scanner.Reachable
import Mathlib.Data.Prod.Lex

/-!
# Offset order is reading order

Positions are compared by offset alone; readers compare them by line and then by column
(`Position.place`). In one text the two orders are one: each character that is gone over takes the
place further (`place_lt_place_next`), so the places of a text come in the order of their indices
(`place_counted_lt`). `offset_order_is_reading_order` says what this means for the positions that
scanners of the text tell, at whatever time and in whichever clone, and for the two choices that a
merge makes between positions.
-/

namespace Lexis

/-- The position is told by a scanner of the text: it is the cursor of a reachable scanner, or an
end of its current token. -/
def Position.ToldIn (p : Position) (source : String) : Prop :=
  ∃ s, Scanner.Reachable source s ∧
    (p = s.cursor.position ∨ p = s.token.location.start ∨ p = s.token.location.stop)

namespace Position

/-- Line and column of a position, in reading order: by line, and by column in a line. -/
def place (p : Position) : Nat ×ₗ Nat := toLex (p.line, p.column)

/-- Reading order, spelled out. -/
theorem place_lt_place_iff {p q : Position} :
    p.place < q.place ↔ p.line < q.line ∨ p.line = q.line ∧ p.column < q.column :=
  Prod.Lex.toLex_lt_toLex

/-- Going over a character takes the place further. -/
theorem place_lt_place_next (p : Position) (c : Char) : p.place < (p.next c).place := by
  rw [place_lt_place_iff, next]
  split
  · exact .inl (Nat.lt_succ_self _)
  · exact .inr ⟨rfl, Nat.lt_succ_self _⟩

section
variable {text : List Char} {p q : Position}

/-- The places of a text come in the order of their indices. -/
theorem place_counted_lt {i j : Nat} (hij : i < j) (hj : j ≤ text.length) :
    (counted text i).place < (counted text j).place := by
  have hstep : ∀ k < text.length, (counted text k).place < (counted text (k + 1)).place := by
    intro k hk
    rw [← next_counted (List.getElem?_eq_getElem hk)]
    exact place_lt_place_next _ _
  induction hij with
  | refl => exact hstep i hj
  | step hij ih => exact (ih (Nat.le_of_succ_le hj)).trans (hstep _ hj)

/-- The place with the smaller offset comes first in reading order. -/
theorem Counts.place_lt (hp : p.Counts text) (hq : q.Counts text) (h : p.offset < q.offset) :
    p.place < q.place := by
  rw [hp.eq_counted, hq.eq_counted]
  exact place_counted_lt h hq.offset_le

/-- Of one index there is one place. -/
theorem Counts.eq_of_offset_eq (hp : p.Counts text) (hq : q.Counts text)
    (h : p.offset = q.offset) : p = q := by
  rw [hp.eq_counted, hq.eq_counted, h]

/-- In one text the order of offsets is reading order. -/
theorem Counts.offset_le_iff (hp : p.Counts text) (hq : q.Counts text) :
    p.offset ≤ q.offset ↔ p.place ≤ q.place := by
  constructor
  · intro hle
    rcases Nat.lt_or_eq_of_le hle with hlt | heq
    · exact (hp.place_lt hq hlt).le
    · rw [hp.eq_of_offset_eq hq heq]
  · intro hle
    by_contra hlt
    exact absurd (hq.place_lt hp (Nat.lt_of_not_le hlt)) (not_lt_of_ge hle)

/-- The strict order of offsets is the strict reading order. -/
theorem Counts.offset_lt_iff (hp : p.Counts text) (hq : q.Counts text) :
    p.offset < q.offset ↔ p.place < q.place := by
  rw [← Nat.not_le, hq.offset_le_iff hp, not_le]

/-- In one text the order of two positions does not matter to the choice between them. -/
theorem Counts.earlier_comm (hp : p.Counts text) (hq : q.Counts text) :
    p.earlier q = q.earlier p :=
  earlier_comm_iff.2 (or_iff_not_imp_right.2 fun h => hp.eq_of_offset_eq hq (not_not.1 h))

/-- In one text the last of two positions is told without minding their order, too. -/
theorem Counts.later_comm (hp : p.Counts text) (hq : q.Counts text) : p.later q = q.later p :=
  later_comm_iff.2 (or_iff_not_imp_right.2 fun h => hp.eq_of_offset_eq hq (not_not.1 h))

/-- The choice of the smaller offset is that of the first position in reading order. -/
theorem Counts.earlier_eq (hp : p.Counts text) (hq : q.Counts text) :
    p.earlier q = if p.place ≤ q.place then p else q := by
  split
  · next hle =>
    rw [hp.earlier_comm hq]
    exact earlier_eq_right_iff.2 ((hp.offset_le_iff hq).2 hle)
  · next hlt => exact earlier_eq_right_iff.2 ((hq.offset_le_iff hp).2 (le_of_not_ge hlt))

/-- The choice of the larger offset is that of the last position in reading order. -/
theorem Counts.later_eq (hp : p.Counts text) (hq : q.Counts text) :
    p.later q = if p.place ≤ q.place then q else p := by
  split
  · next hle => exact later_eq_right_iff.2 ((hp.offset_le_iff hq).2 hle)
  · next hlt =>
    rw [hp.later_comm hq]
    exact later_eq_right_iff.2 ((hq.offset_le_iff hp).2 (le_of_not_ge hlt))

end

/-- What scanners tell of positions is counted over the text. -/
theorem ToldIn.counts {p : Position} {source : String} (h : p.ToldIn source) :
    p.Counts source.toList := by
  obtain ⟨s, hs, rfl | rfl | rfl⟩ := h
  · exact (located_of_reachable hs).cursor
  · exact (located_of_reachable hs).start
  · exact (located_of_reachable hs).stop

end Position

/-- Of any two positions that scanners of a text tell, the one with the smaller offset is the one
that comes first in reading order, and there is one position for each offset. So the two choices by
offset give the first and the last in reading order, and give the same when their arguments change
places. -/
theorem offset_order_is_reading_order {source : String} {p q : Position} (hp : p.ToldIn source)
    (hq : q.ToldIn source) :
    (p.offset < q.offset ↔ p.line < q.line ∨ p.line = q.line ∧ p.column < q.column) ∧
      (p.offset = q.offset → p = q) ∧
      p.earlier q = (if p.place ≤ q.place then p else q) ∧ q.earlier p = p.earlier q ∧
      p.later q = (if p.place ≤ q.place then q else p) ∧ q.later p = p.later q := by
  have hp := hp.counts
  have hq := hq.counts
  exact ⟨(hp.offset_lt_iff hq).trans Position.place_lt_place_iff, hp.eq_of_offset_eq hq,
    hp.earlier_eq hq, hq.earlier_comm hp, hp.later_eq hq, hq.later_comm hp⟩

/-- A clone that is ahead of the scanner tells a position with a smaller column on a later line. -/
theorem offset_order_across_lines :
    let s := Scanner.ofString "ab\nc"
    s.token.location.stop = ⟨1, 3, 2⟩ ∧ s.advance.token.location.start = ⟨2, 1, 3⟩ ∧
      s.token.location.stop.ToldIn "ab\nc" ∧ s.advance.token.location.start.ToldIn "ab\nc" ∧
      s.advance.token.location.start.earlier s.token.location.stop = s.token.location.stop := by
  intro s
  have hstop : s.token.location.stop.ToldIn "ab\nc" :=
    ⟨s, ⟨_, .new, List.mem_singleton_self _⟩, .inr (.inr rfl)⟩
  have hstart : s.advance.token.location.start.ToldIn "ab\nc" :=
    ⟨s.advance, ⟨_, .step (.step .new (.clone [] _ [])) (.advance [] _ [_]), List.mem_cons_self⟩,
      .inr (.inl rfl)⟩
  obtain ⟨-, -, hearlier, hcomm, -⟩ := offset_order_is_reading_order hstop hstart
  have hplace : s.token.location.stop.place ≤ s.advance.token.location.start.place := by decide
  rw [if_pos hplace] at hearlier
  exact ⟨by decide, by decide, hstop, hstart, hcomm.trans hearlier⟩

end Lexis
