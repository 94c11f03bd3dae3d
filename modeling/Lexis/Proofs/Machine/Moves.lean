import Lexis.Proofs.Cursor.Reading
import Lexis.Proofs.Machine.Step
import Lexis.Proofs.Position.Counting
import Lexis.Proofs.Position.LineFeeds

/-!
# The moves of a machine

A machine is `Placed` on a text if its offset, line and column are those of a place of the text.
`Position.Counts.bounded` gives what the counters need there: line and column are together larger
than the offset by no more than two, so none of the three outgrows the text by more than one. From
it follows that looking and going over a character succeed: `peek_eq`, `Placed.peekNext_eq` and
`Placed.exists_bump`, which is also where a placed machine is shown to stay placed.
-/

namespace Lexis

/-! ## Bounds on positions -/

/-- Lines and columns are counted from one, and together they do not go beyond the offset by more
than the two that they begin with. -/
structure Position.Bounded (p : Position) : Prop where
  line_pos : 1 ≤ p.line
  column_pos : 1 ≤ p.column
  line_add_column_le : p.line + p.column ≤ p.offset + 2

namespace Position

/-- Bounds hold behind a character: a line feed makes up for the line by the column, which begins
anew. -/
theorem Bounded.next {p : Position} (h : p.Bounded) (c : Char) : (p.next c).Bounded := by
  obtain ⟨hline, hcolumn, hsum⟩ := h
  unfold Position.next
  split
  · exact ⟨by simp, by simp, by simp; omega⟩
  · exact ⟨hline, by simp, by simp; omega⟩

/-- Bounds hold behind any text. -/
theorem Bounded.after {p : Position} (h : p.Bounded) (cs : List Char) : (p.after cs).Bounded := by
  induction cs generalizing p with
  | nil => exact h
  | cons c cs ih => exact ih (h.next c)

/-- The places of a text are bounded: each line but the first one begins behind a line feed. -/
theorem Counts.bounded {p : Position} {text : List Char} (h : p.Counts text) : p.Bounded := by
  have hp : p = origin.after (text.take p.offset) := by
    have hlength : (text.take p.offset).length = p.offset := by
      rw [List.length_take, Nat.min_eq_left h.offset_le]
    have hafter := after_origin (text.take p.offset) (text.drop p.offset)
    rw [List.take_append_drop, hlength] at hafter
    rw [hafter]
    exact h.eq_counted
  rw [hp]
  exact Bounded.after ⟨Nat.le_refl _, Nat.le_refl _, Nat.le_refl _⟩ _

end Position

namespace Machine

variable {source : String} {m m' : Machine}

/-- The cursor of the machine, with the text that is still to be read. -/
def cursor (m : Machine) : Cursor := ⟨m.position, m.text.toList.drop m.offset.toNat⟩

/-- The cursor is at a place of the text, which is not too long for its indices to be words. -/
structure Placed (m : Machine) (source : String) : Prop where
  length_le : source.length ≤ UInt64.size - 2
  text_eq : m.text.toList = source.toList
  counts : m.position.Counts source.toList

/-! ## Looking -/

/-- One can be added to a word that is not the largest. -/
theorem increment_eq {word : UInt64} (h : word.toNat + 1 < UInt64.size) :
    ∃ next, increment word = .ok next ∧ next.toNat = word.toNat + 1 := by
  refine ⟨word + 1, if_pos h, ?_⟩
  rw [UInt64.toNat_add]
  exact Nat.mod_eq_of_lt h

/-- Looking at an index that the text has does not fail. -/
theorem charAt_eq {i : UInt64} {c : Char} (h : m.text[i.toNat]? = some c) :
    m.charAt i = .ok c := by
  rw [charAt, h]

/-- The character at the cursor is the first one that is still to be read. -/
theorem head?_rest (m : Machine) : m.cursor.rest.head? = m.text[m.offset.toNat]? := by
  rw [cursor, List.head?_drop, Array.getElem?_toList]

/-- The machine is at the end of the text exactly when nothing is left to be read. -/
theorem atEnd_iff : m.atEnd ↔ m.cursor.rest = [] := by
  rw [atEnd, decide_eq_true_iff, cursor, List.drop_eq_nil_iff, Array.length_toList]

/-- Looking at the cursor does not fail, whatever the state of the machine. -/
theorem peek_eq (m : Machine) : m.peek = .ok (m.cursor.rest.head?.getD '\x00') := by
  unfold peek
  split
  · next hend => rw [atEnd_iff.1 hend]; rfl
  · next hend =>
    rw [atEnd_iff, ← List.head?_eq_none_iff] at hend
    obtain ⟨c, hc⟩ := Option.ne_none_iff_exists'.1 hend
    rw [hc]
    exact charAt_eq (m.head?_rest ▸ hc)

section
variable {c : Char} {rest : List Char}

/-- In front of a character the machine is not at the end of the text. -/
theorem not_atEnd (hrest : m.cursor.rest = c :: rest) : ¬ m.atEnd := by
  rw [atEnd_iff, hrest]
  exact List.cons_ne_nil _ _

/-- What is seen in front of a character is that character. -/
theorem peek_of_rest_eq_cons (hrest : m.cursor.rest = c :: rest) : m.peek = .ok c := by
  rw [peek_eq, hrest]
  rfl

/-- In front of a character the offset is an index of the text. -/
theorem Placed.offset_lt (h : m.Placed source) (hrest : m.cursor.rest = c :: rest) :
    m.offset.toNat < source.length := by
  have hne : m.text.toList.drop m.offset.toNat ≠ [] := by
    intro hnil
    exact List.cons_ne_nil _ _ (hrest.symm.trans hnil)
  rw [Ne, List.drop_eq_nil_iff, h.text_eq, String.length_toList] at hne
  exact Nat.lt_of_not_le hne

/-- What stands behind the character at the cursor, by index. -/
theorem drop_succ_offset (hrest : m.cursor.rest = c :: rest) :
    m.text.toList.drop (m.offset.toNat + 1) = rest := by
  rw [← List.tail_drop]
  exact congrArg List.tail hrest

/-- Looking behind the cursor does not fail in front of the end of the text. -/
theorem Placed.peekNext_eq (h : m.Placed source) (hrest : m.cursor.rest = c :: rest) :
    m.peekNext = .ok (rest.head?.getD '\x00') := by
  have hlt := h.offset_lt hrest
  have hlength := h.length_le
  obtain ⟨next, hnext, hoffset⟩ := increment_eq (show m.offset.toNat + 1 < UInt64.size by omega)
  have hhead : rest.head? = m.text[next.toNat]? := by
    rw [← drop_succ_offset hrest, List.head?_drop, Array.getElem?_toList, hoffset]
  unfold peekNext
  rw [hnext]
  show (if m.text.size ≤ next.toNat then _ else _) = _
  split
  · next hend =>
    rw [hhead, Array.getElem?_eq_none hend]
    rfl
  · next hend =>
    obtain ⟨d, hd⟩ : ∃ d, m.text[next.toNat]? = some d :=
      ⟨_, Array.getElem?_eq_getElem (Nat.lt_of_not_le hend)⟩
    rw [hhead, hd]
    exact charAt_eq hd

/-! ## Going over a character -/

/-- Going over the character `c`, with the text `rest` behind it, leads from one machine to the
other. -/
structure GoesOver (m m' : Machine) (c : Char) (rest : List Char) : Prop where
  cursor_eq : m'.cursor = ⟨m.position.next c, rest⟩
  text_eq : m'.text = m.text
  token_eq : m'.token = m.token
  phase_eq : m'.phase = m.phase

/-- Behind a character the machine is at a place of the text again. -/
theorem Placed.goesOver (h : m.Placed source) (hrest : m.cursor.rest = c :: rest)
    (hover : m.GoesOver m' c rest) : m'.Placed source := by
  have hc : source.toList[m.offset.toNat]? = some c := by
    rw [← h.text_eq, Array.getElem?_toList, ← head?_rest, hrest]
    rfl
  have hnext : m.position.next c = .counted source.toList (m.offset.toNat + 1) := by
    rw [← Position.next_counted hc]
    exact congrArg (Position.next · c) h.counts.eq_counted
  refine ⟨h.length_le, hover.text_eq ▸ h.text_eq, ?_⟩
  have hposition : m'.position = m.position.next c := congrArg Cursor.position hover.cursor_eq
  rw [hposition, hnext]
  refine ⟨?_, rfl⟩
  rw [String.length_toList]
  exact h.offset_lt hrest

/-- Going over a character does not fail: its index is in the text, and what is counted is not
larger than the length of the text by more than one. -/
theorem Placed.exists_bump (h : m.Placed source) (hrest : m.cursor.rest = c :: rest) :
    ∃ m', m.bump = .ok m' ∧ m'.Placed source ∧ m.GoesOver m' c rest := by
  have hlt := h.offset_lt hrest
  have hlength := h.length_le
  obtain ⟨hline, hcolumn, hsum⟩ := h.counts.bounded
  dsimp only [position] at hline hcolumn hsum
  have hend := not_atEnd hrest
  have hchar : m.charAt m.offset = .ok c := charAt_eq (by rw [← head?_rest, hrest]; rfl)
  obtain ⟨offset, hoffset, hoffsetEq⟩ :=
    increment_eq (show m.offset.toNat + 1 < UInt64.size by omega)
  suffices hbump : ∃ m', m.bump = .ok m' ∧ m.GoesOver m' c rest by
    obtain ⟨m', hm', hover⟩ := hbump
    exact ⟨m', hm', h.goesOver hrest hover, hover⟩
  have hdrop : m.text.toList.drop offset.toNat = rest := by rw [hoffsetEq, drop_succ_offset hrest]
  by_cases hnewline : c = '\n'
  · obtain ⟨line, hline, hlineEq⟩ := increment_eq (show m.line.toNat + 1 < UInt64.size by omega)
    refine ⟨{ m with line, column := 1, offset }, ?_, ?_, rfl, rfl, rfl⟩
    · simp [bump, hend, hchar, hnewline, hline, hoffset, bind, Except.bind, pure, Except.pure]
    · rw [hnewline, Position.next_lineFeed, cursor, position, hlineEq, hdrop, hoffsetEq]
      rfl
  · obtain ⟨column, hcolumn, hcolumnEq⟩ :=
      increment_eq (show m.column.toNat + 1 < UInt64.size by omega)
    refine ⟨{ m with column, offset }, ?_, ?_, rfl, rfl, rfl⟩
    · simp [bump, hend, hchar, hnewline, hcolumn, hoffset, bind, Except.bind, pure, Except.pure]
    · rw [Position.next_of_ne _ hnewline, cursor, position, hcolumnEq, hdrop, hoffsetEq]
      rfl

end

end Machine

end Lexis
