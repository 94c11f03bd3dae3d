/-!
# Counting lines

A text that is made of lines, each ended by its only line feed, has as many line feeds as lines.
-/

namespace Lexis.Text

/-- A line has one line feed, at its end. -/
theorem count_lineFeed_line {line : String} (h : '\n' ∉ line.toList) :
    (line ++ "\n").toList.count '\n' = 1 := by
  rw [String.toList_append, List.count_append, List.count_eq_zero.2 h]
  rfl

/-- Lines in a row have one line feed each. -/
theorem count_lineFeed_join {α : Type} {line : α → String} {as : List α}
    (h : ∀ a ∈ as, (line a).toList.count '\n' = 1) :
    (String.join (as.map line)).toList.count '\n' = as.length := by
  induction as with
  | nil => rfl
  | cons a as ih =>
    have hline := h a List.mem_cons_self
    have hrest := ih fun b hb => h b (List.mem_cons_of_mem _ hb)
    rw [List.map_cons, String.join_cons, String.toList_append, List.count_append, hline, hrest,
      List.length_cons, Nat.add_comm]

end Lexis.Text
