import Lexis.Position
import Lexis.Proofs.CharClass

/-!
# What a stretch of text does to a position

Going over a stretch of text moves a position by the length of the stretch, by the number of its
line feeds, and, if there are any, to the column behind the last of them.
`Position.after_eq_after_iff` says that this is all: two stretches lead to the same place exactly
when they are equally long and have equally many line feeds and the last one at the same index
(`SameLineFeeds`), whatever else is in them.
-/

namespace Lexis

/-- The last line feed of the stretch stands at index `k`. -/
def LastLineFeed (cs : List Char) (k : Nat) : Prop :=
  cs[k]? = some '\n' ∧ '\n' ∉ cs.drop (k + 1)

/-- The stretches are equally long and have the same number of line feeds and, if there are any, the
last one at the same index. -/
structure SameLineFeeds (as bs : List Char) : Prop where
  length_eq : as.length = bs.length
  count_eq : as.count '\n' = bs.count '\n'
  last_iff : ∀ k, LastLineFeed as k ↔ LastLineFeed bs k

/-! ## The last line feed -/

/-- A text with line feeds has a last one. -/
theorem exists_append_lineFeed {cs : List Char} (h : '\n' ∈ cs) :
    ∃ before behind, cs = before ++ '\n' :: behind ∧ '\n' ∉ behind := by
  induction cs with
  | nil => cases h
  | cons c cs ih =>
    by_cases hcs : '\n' ∈ cs
    · obtain ⟨before, behind, rfl, hbehind⟩ := ih hcs
      exact ⟨c :: before, behind, rfl, hbehind⟩
    · rcases List.mem_cons.1 h with rfl | h
      · exact ⟨[], cs, rfl, hcs⟩
      · exact absurd h hcs

/-- A line feed with none behind it is the last one. -/
theorem lastLineFeed_append_iff {before behind : List Char} (h : '\n' ∉ behind) {k : Nat} :
    LastLineFeed (before ++ '\n' :: behind) k ↔ k = before.length := by
  constructor
  · rintro ⟨hk, hlast⟩
    rcases Nat.lt_trichotomy k before.length with hlt | heq | hgt
    · rw [List.drop_append_of_le_length (by omega)] at hlast
      exact absurd (List.mem_append_right _ List.mem_cons_self) hlast
    · exact heq
    · obtain ⟨i, rfl⟩ := Nat.exists_eq_add_of_lt hgt
      rw [List.getElem?_append_right (by omega)] at hk
      have hi : before.length + i + 1 - before.length = i + 1 := by omega
      rw [hi, List.getElem?_cons_succ] at hk
      exact absurd (List.mem_of_getElem? hk) h
  · rintro rfl
    refine ⟨?_, ?_⟩
    · simp
    · simpa using h

/-- A text without line feeds has no last one. -/
theorem not_lastLineFeed {cs : List Char} (h : '\n' ∉ cs) (k : Nat) : ¬ LastLineFeed cs k :=
  fun hk => h (List.mem_of_getElem? hk.1)

namespace Position

/-! ## Lines and columns behind a stretch -/

/-- A line feed opens a line, and is itself in front of it. -/
theorem next_lineFeed (p : Position) : p.next '\n' = ⟨p.line + 1, 1, p.offset + 1⟩ := rfl

/-- Every other character is one column wide. -/
theorem next_of_ne (p : Position) {c : Char} (h : c ≠ '\n') :
    p.next c = ⟨p.line, p.column + 1, p.offset + 1⟩ := by
  have hclass : CharClass.of c ≠ .newline := by
    intro hclass
    exact h (CharClass.of_eq_iff.1 hclass)
  rw [next, if_neg hclass]

/-- Line feeds are what opens lines. -/
theorem line_after (p : Position) (cs : List Char) :
    (p.after cs).line = p.line + cs.count '\n' := by
  induction cs generalizing p with
  | nil => rfl
  | cons c cs ih =>
    rw [after_cons, ih]
    by_cases hc : c = '\n'
    · subst hc
      rw [next_lineFeed, List.count_cons_self, Nat.add_assoc, Nat.add_comm 1]
    · rw [next_of_ne p hc, List.count_cons_of_ne hc]

/-- Without line feeds the column goes on. -/
theorem column_after_of_not_mem (p : Position) {cs : List Char} (h : '\n' ∉ cs) :
    (p.after cs).column = p.column + cs.length := by
  induction cs generalizing p with
  | nil => rfl
  | cons c cs ih =>
    have hc : c ≠ '\n' := (List.ne_of_not_mem_cons h).symm
    have hcs : '\n' ∉ cs := List.not_mem_of_not_mem_cons h
    rw [after_cons, ih _ hcs, next_of_ne p hc, List.length_cons, Nat.add_assoc,
      Nat.add_comm 1]

/-- Behind a line feed the columns begin anew. -/
theorem column_after_append (p : Position) (before : List Char) {behind : List Char}
    (h : '\n' ∉ behind) : (p.after (before ++ '\n' :: behind)).column = 1 + behind.length := by
  rw [after_append, after_cons, column_after_of_not_mem _ h, next_lineFeed]

/-- Of two stretches with the same length and number of line feeds, the column behind them tells the
index of the last line feed. -/
theorem column_after_eq_iff (p : Position) {as bs : List Char} (hlength : as.length = bs.length)
    (hcount : as.count '\n' = bs.count '\n') :
    (p.after as).column = (p.after bs).column ↔ ∀ k, LastLineFeed as k ↔ LastLineFeed bs k := by
  by_cases has : '\n' ∈ as
  · have hbs : '\n' ∈ bs := by
      rw [← List.count_pos_iff, ← hcount]
      exact List.count_pos_iff.2 has
    obtain ⟨before, behind, rfl, hbehind⟩ := exists_append_lineFeed has
    obtain ⟨before', behind', rfl, hbehind'⟩ := exists_append_lineFeed hbs
    rw [column_after_append p before hbehind, column_after_append p before' hbehind']
    simp only [lastLineFeed_append_iff hbehind, lastLineFeed_append_iff hbehind']
    simp only [List.length_append, List.length_cons] at hlength
    constructor
    · intro h k
      omega
    · intro h
      have hindex := (h before.length).1 rfl
      omega
  · have hbs : '\n' ∉ bs := by
      rw [← List.count_eq_zero, ← hcount]
      exact List.count_eq_zero.2 has
    rw [column_after_of_not_mem p has, column_after_of_not_mem p hbs, hlength]
    refine iff_of_true rfl ?_
    intro k
    exact iff_of_false (not_lastLineFeed has k) (not_lastLineFeed hbs k)

/-- Two stretches lead to the same place exactly when they have the same line feeds, as far as
length, number and the last of them go. -/
theorem after_eq_after_iff (p : Position) {as bs : List Char} :
    p.after as = p.after bs ↔ SameLineFeeds as bs := by
  constructor
  · intro h
    have hoffset := congrArg offset h
    rw [offset_after, offset_after] at hoffset
    have hlength : as.length = bs.length := Nat.add_left_cancel hoffset
    have hline := congrArg line h
    rw [line_after, line_after] at hline
    have hcount : as.count '\n' = bs.count '\n' := Nat.add_left_cancel hline
    exact ⟨hlength, hcount, (column_after_eq_iff p hlength hcount).1 (congrArg column h)⟩
  · rintro ⟨hlength, hcount, hlast⟩
    have hline : (p.after as).line = (p.after bs).line := by rw [line_after, line_after, hcount]
    have hcolumn := (column_after_eq_iff p hlength hcount).2 hlast
    have hoffset : (p.after as).offset = (p.after bs).offset := by
      rw [offset_after, offset_after, hlength]
    show (⟨(p.after as).line, (p.after as).column, (p.after as).offset⟩ : Position) = _
    rw [hline, hcolumn, hoffset]

end Position

end Lexis
