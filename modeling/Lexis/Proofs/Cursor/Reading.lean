import Lexis.Cursor
import Lexis.Proofs.Lexeme.Legal
import Lexis.Proofs.Text.Cut

/-!
# How a text is cut

Reading cuts a text into gaps of white space and lexemes. `Munch first tail rest` says that a text
that goes on with `first :: tail` and then `rest` has `first :: tail` for its next lexeme, no more
and no less. Every text is a gap alone, or a gap, such a lexeme and a shorter text:
`reading_induction` is induction along these cuts. At a cut the scanner's functions have plain
equations, `Cursor.tokens_gap` and `Cursor.tokens_munch`; everything about the token stream follows
from the equations by that induction, without going back to how the cut is found. The stream is its
`Cursor.body`, the tokens that have lexemes, and one token behind them (`tokens_eq_body_append`).
-/

namespace Lexis

/-! ## Gaps and lexemes -/

/-- The next lexeme of the text `first :: (tail ++ rest)` is `first :: tail`: it begins with a
character that is not white space, which takes in the characters of `tail` but not the one behind
them. -/
structure Munch (first : Char) (tail rest : List Char) : Prop where
  start : isSpace first = false
  run : ∀ c ∈ tail, isContinuedBy first c
  stop : ∀ c ∈ rest.head?, isContinuedBy first c = false

/-- What is munched is the lexeme with which the text begins. -/
theorem Munch.front_eq {first : Char} {tail rest : List Char} (h : Munch first tail rest) :
    Lexeme.front (first :: (tail ++ rest)) = first :: tail := by
  rw [Lexeme.front, takeWhile_append_of_stop h.run h.stop]

/-- The test for white space decides whether a character is in the list of it. -/
theorem not_mem_whiteSpace_of_isSpace {c : Char} (h : isSpace c = false) : c ∉ whiteSpace := by
  intro hmem
  rw [isSpace_iff_mem.2 hmem] at h
  cases h

/-- There is no white space in a lexeme. -/
theorem Munch.not_mem_whiteSpace {first : Char} {tail rest : List Char}
    (h : Munch first tail rest) : ∀ c ∈ first :: tail, c ∉ whiteSpace := by
  intro c hc
  refine not_mem_whiteSpace_of_isSpace ?_
  rcases List.mem_cons.1 hc with rfl | hc
  · exact h.start
  · exact Lexeme.isSpace_eq_false_of_isAlphanum (isAlphanum_of_isContinuedBy (h.run c hc))

/-- Only the empty lexeme marks the end of a text. -/
theorem Munch.kind_ne_endOfStream {first : Char} {tail rest : List Char}
    (h : Munch first tail rest) : Lexeme.kind (first :: tail) ≠ .endOfStream := by
  intro hend
  have hlegal := Lexeme.legal_kind h.start h.run
  rw [hend] at hlegal
  cases hlegal

/-- Behind a character that is not white space, a lexeme ends somewhere. -/
theorem exists_munch {first : Char} (hfirst : isSpace first = false) (cs : List Char) :
    ∃ tail rest, cs = tail ++ rest ∧ Munch first tail rest := by
  refine ⟨cs.takeWhile (isContinuedBy first), cs.dropWhile (isContinuedBy first),
    List.takeWhile_append_dropWhile.symm, hfirst, ?_, ?_⟩
  · intro c hc
    exact List.all_eq_true.1 List.all_takeWhile c hc
  · intro c hc
    have h := List.head?_dropWhile_not (isContinuedBy first) cs
    rw [Option.mem_def.1 hc] at h
    simpa using h

/-- A text is white space, or it has a first character that is not. -/
theorem exists_gap (cs : List Char) : cs ⊆ whiteSpace ∨
    ∃ gap first rest, cs = gap ++ first :: rest ∧ gap ⊆ whiteSpace ∧ isSpace first = false := by
  induction cs with
  | nil => exact .inl (List.nil_subset _)
  | cons c cs ih =>
    by_cases hc : isSpace c
    · have hmem := isSpace_iff_mem.1 hc
      rcases ih with hcs | ⟨gap, first, rest, rfl, hgap, hfirst⟩
      · exact .inl (List.cons_subset.2 ⟨hmem, hcs⟩)
      · exact .inr ⟨c :: gap, first, rest, rfl, List.cons_subset.2 ⟨hmem, hgap⟩, hfirst⟩
    · exact .inr ⟨[], c, cs, rfl, List.nil_subset _, Bool.eq_false_iff.2 hc⟩

/-- Induction along the cuts of a text. -/
@[elab_as_elim]
theorem reading_induction {motive : List Char → Prop}
    (gap : ∀ gap, gap ⊆ whiteSpace → motive gap)
    (lexeme : ∀ gap first tail rest, gap ⊆ whiteSpace → Munch first tail rest → motive rest →
      motive (gap ++ first :: (tail ++ rest))) (cs : List Char) : motive cs := by
  rcases exists_gap cs with hcs | ⟨before, first, behind, hcs, hgap, hfirst⟩
  · exact gap cs hcs
  · obtain ⟨tail, rest, hbehind, hmunch⟩ := exists_munch hfirst behind
    have hshorter : rest.length < cs.length := by simp [hcs, hbehind]; omega
    rw [hcs, hbehind]
    exact lexeme before first tail rest hgap hmunch (reading_induction gap lexeme rest)
termination_by cs.length

/-! ## Reading at a cut -/

namespace Cursor

variable {gap tail rest : List Char} {first : Char}

/-- Skipping goes over a gap and stops behind it. -/
theorem skipSpace_gap_append (p : Position) (cs : List Char) (hgap : gap ⊆ whiteSpace)
    (hcs : ∀ c ∈ cs.head?, isSpace c = false) :
    skipSpace ⟨p, gap ++ cs⟩ = ⟨p.after gap, cs⟩ := by
  have hrun : ∀ c ∈ gap, isSpace c := by
    intro c hc
    exact isSpace_iff_mem.2 (hgap hc)
  simp [skipSpace, skip, takeWhile_append_of_stop hrun hcs]

/-- Reading over a gap that ends the text gives the end of the text. -/
theorem next_gap (p : Position) (hgap : gap ⊆ whiteSpace) :
    next ⟨p, gap⟩ = (.ofLexeme (p.after gap) [], ⟨p.after gap, []⟩) := by
  have hskip := skipSpace_gap_append p [] hgap (by simp)
  rw [List.append_nil] at hskip
  simp [next, hskip, skip]

/-- Reading over a gap and a lexeme gives the token of the lexeme and stops behind it. -/
theorem next_munch (p : Position) (hgap : gap ⊆ whiteSpace) (h : Munch first tail rest) :
    next ⟨p, gap ++ first :: (tail ++ rest)⟩ =
      (.ofLexeme (p.after gap) (first :: tail), ⟨p.after (gap ++ first :: tail), rest⟩) := by
  have hskip := skipSpace_gap_append p (first :: (tail ++ rest)) hgap
    (by simpa using h.start)
  have hdrop : (first :: (tail ++ rest)).take (first :: tail).length = first :: tail := by simp
  simp only [next, hskip, h.front_eq, skip, hdrop, Position.after_append]
  simp

/-- Reading goes over a gap and a lexeme, of which both may be empty, and stops behind them. -/
theorem exists_next (c : Cursor) : ∃ gap lexeme rest, c.rest = gap ++ (lexeme ++ rest) ∧
    c.next =
      (.ofLexeme (c.position.after gap) lexeme, ⟨c.position.after (gap ++ lexeme), rest⟩) := by
  obtain ⟨p, cs⟩ := c
  rcases exists_gap cs with hgap | ⟨gap, first, behind, rfl, hgap, hfirst⟩
  · refine ⟨cs, [], [], by simp, ?_⟩
    rw [next_gap p hgap, List.append_nil]
  · obtain ⟨tail, rest, rfl, hmunch⟩ := exists_munch hfirst behind
    exact ⟨gap, first :: tail, rest, rfl, next_munch p hgap hmunch⟩

/-- A gap that ends the text has one token, the end of the text. -/
theorem tokens_gap (p : Position) (hgap : gap ⊆ whiteSpace) :
    tokens ⟨p, gap⟩ = [.ofLexeme (p.after gap) []] := by
  have hskip := skipSpace_gap_append p [] hgap (by simp)
  rw [List.append_nil] at hskip
  rw [tokens, if_pos (by rw [hskip]), next_gap p hgap]

/-- The tokens from a gap and a lexeme on: that of the lexeme, then those of the text behind it. -/
theorem tokens_munch (p : Position) (hgap : gap ⊆ whiteSpace) (h : Munch first tail rest) :
    tokens ⟨p, gap ++ first :: (tail ++ rest)⟩ =
      .ofLexeme (p.after gap) (first :: tail) :: tokens ⟨p.after (gap ++ first :: tail), rest⟩ := by
  have hskip := skipSpace_gap_append p (first :: (tail ++ rest)) hgap
    (by simpa using h.start)
  rw [tokens, if_neg (by rw [hskip]; exact List.cons_ne_nil _ _), next_munch p hgap h]

/-- White space in front of a text moves its tokens and nothing else. -/
theorem tokens_gap_append (p : Position) (hgap : gap ⊆ whiteSpace) (cs : List Char) :
    tokens ⟨p, gap ++ cs⟩ = tokens ⟨p.after gap, cs⟩ := by
  rcases exists_gap cs with hcs | ⟨gap', first, behind, rfl, hgap', hfirst⟩
  · have hall : gap ++ cs ⊆ whiteSpace := List.append_subset.2 ⟨hgap, hcs⟩
    rw [tokens_gap p hall, tokens_gap _ hcs, Position.after_append]
  · obtain ⟨tail, rest, rfl, hmunch⟩ := exists_munch hfirst behind
    have hall : gap ++ gap' ⊆ whiteSpace := List.append_subset.2 ⟨hgap, hgap'⟩
    rw [← List.append_assoc, tokens_munch p hall hmunch, tokens_munch _ hgap' hmunch,
      List.append_assoc, Position.after_append, Position.after_append]

/-! ## The stream in front of its end -/

/-- There is always a token for the end of the text. -/
theorem tokens_ne_nil (c : Cursor) : c.tokens ≠ [] := by
  rw [tokens]
  split <;> exact List.cons_ne_nil _ _

/-- The tokens from `c` on without the last one, which marks the end of the text. -/
def body (c : Cursor) : List Token := c.tokens.dropLast

/-- A gap that ends the text has no lexemes. -/
theorem body_gap (p : Position) (hgap : gap ⊆ whiteSpace) : body ⟨p, gap⟩ = [] := by
  rw [body, tokens_gap p hgap, List.dropLast_singleton]

/-- The body behind a gap and a lexeme: the token of the lexeme, then the body of the text behind
it. -/
theorem body_munch (p : Position) (hgap : gap ⊆ whiteSpace) (h : Munch first tail rest) :
    body ⟨p, gap ++ first :: (tail ++ rest)⟩ =
      .ofLexeme (p.after gap) (first :: tail) :: body ⟨p.after (gap ++ first :: tail), rest⟩ := by
  rw [body, tokens_munch p hgap h, List.dropLast_cons_of_ne_nil (tokens_ne_nil _), body]

/-- The end of the text is marked where going over the whole text comes to. -/
theorem tokens_eq_body_append (p : Position) (cs : List Char) :
    tokens ⟨p, cs⟩ = body ⟨p, cs⟩ ++ [.ofLexeme (p.after cs) []] := by
  induction cs using reading_induction generalizing p with
  | gap gap hgap => rw [tokens_gap p hgap, body_gap p hgap, List.nil_append]
  | lexeme gap first tail rest hgap hmunch ih =>
    rw [tokens_munch p hgap hmunch, body_munch p hgap hmunch, ih, ← Position.after_append]
    simp

end Cursor

end Lexis
