/-!
# Cutting a text behind a run

A run of characters that pass a test ends in front of the first character that fails it, or at the
end of the text. So the run and what is behind it can be told from the text.
-/

namespace Lexis

section
variable {p : Char → Bool} {run run' rest rest' : List Char}

/-- Cutting a text where a test fails for the first time. -/
theorem takeWhile_append_of_stop (hrun : ∀ c ∈ run, p c)
    (hstop : ∀ c ∈ rest.head?, p c = false) : (run ++ rest).takeWhile p = run := by
  rw [List.takeWhile_append_of_pos hrun]
  cases rest with
  | nil => simp
  | cons c cs => simp [hstop c rfl]

/-- What is behind the first character that fails a test, and that character. -/
theorem dropWhile_append_of_stop (hrun : ∀ c ∈ run, p c)
    (hstop : ∀ c ∈ rest.head?, p c = false) : (run ++ rest).dropWhile p = rest := by
  have hcut := List.takeWhile_append_dropWhile (p := p) (l := run ++ rest)
  rw [takeWhile_append_of_stop hrun hstop] at hcut
  exact List.append_cancel_left hcut

/-- A text is cut behind a run in one way only. -/
theorem append_inj_of_stop (hrun : ∀ c ∈ run, p c) (hstop : ∀ c ∈ rest.head?, p c = false)
    (hrun' : ∀ c ∈ run', p c) (hstop' : ∀ c ∈ rest'.head?, p c = false)
    (h : run ++ rest = run' ++ rest') : run = run' ∧ rest = rest' := by
  have hcut := congrArg (List.takeWhile p) h
  rw [takeWhile_append_of_stop hrun hstop, takeWhile_append_of_stop hrun' hstop'] at hcut
  subst hcut
  exact ⟨rfl, List.append_cancel_left h⟩

end

end Lexis
