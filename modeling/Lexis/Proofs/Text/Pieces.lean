/-!
# Reading a text piece by piece

`readMany` repeats the reading of one piece until no further piece can be read, and gives the pieces
and what is left. Pieces that are read back whatever stands behind them are read back one after the
other (`readMany_flatMap`).
-/

namespace Lexis

section
variable {α : Type} {read? : List Char → Option (α × List Char)} {cs rest : List Char} {a : α}

/-- Reads pieces for as long as each takes something from the text. -/
def readMany (read? : List Char → Option (α × List Char)) (cs : List Char) :
    List α × List Char :=
  match read? cs with
  | none => ([], cs)
  | some (a, rest) =>
    if _h : rest.length < cs.length then
      (a :: (readMany read? rest).1, (readMany read? rest).2)
    else ([], cs)
termination_by cs.length

/-- A piece takes something from the text. -/
theorem length_lt_length_append {piece : List Char} (hne : piece ≠ []) (rest : List Char) :
    rest.length < (piece ++ rest).length := by
  have hpos := List.length_pos_iff.2 hne
  rw [List.length_append]
  omega

/-- Reading many stops where there is no piece. -/
theorem readMany_of_none (h : read? cs = none) : readMany read? cs = ([], cs) := by
  rw [readMany, h]

/-- Reading many goes on behind a piece that is not empty. -/
theorem readMany_of_some (h : read? cs = some (a, rest)) (hlt : rest.length < cs.length) :
    readMany read? cs = (a :: (readMany read? rest).1, (readMany read? rest).2) := by
  rw [readMany, h]
  exact dif_pos hlt

/-- Pieces that are read back whatever stands behind them are read back one after the other. -/
theorem readMany_flatMap {write : α → List Char}
    (hread : ∀ a rest, read? (write a ++ rest) = some (a, rest)) (as : List α)
    (hstop : read? rest = none) : readMany read? (as.flatMap write ++ rest) = (as, rest) := by
  have hne : ∀ a, write a ≠ [] := by
    intro a ha
    have hnil := hread a rest
    rw [ha, List.nil_append, hstop] at hnil
    cases hnil
  induction as with
  | nil => exact readMany_of_none hstop
  | cons a as ih =>
    rw [List.flatMap_cons, List.append_assoc,
      readMany_of_some (hread a _) (length_lt_length_append (hne a) _), ih]

end

end Lexis
