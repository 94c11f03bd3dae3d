import Lexis.Scanner
import Lexis.Proofs.Cursor.Reading
import Lexis.Proofs.Position.Counting

/-!
# Reachable scanners

Scanners are values: a clone goes its own way, and all clones of the scanner of a text form a
family in which any member may advance or be cloned at any time (`Scanner.Family`). A reachable
scanner is a member of such a family. `Reachable.rec_advance` proves a property of all of them from
the first one and one advance. By it the cursor of a reachable scanner has the text in front of it
behind it (`Cursor.Reads`), and `located_of_reachable` says what follows for its positions: line and
column of the cursor and of both ends of the current token are those that are counted from the
beginning of the text, and the cursor stands where the current token ends.
-/

namespace Lexis

namespace Scanner

/-- What happens in a family of scanners: one of them advances, or one of them is cloned. -/
inductive Step : List Scanner → List Scanner → Prop
  | advance (before : List Scanner) (s : Scanner) (after : List Scanner) :
      Step (before ++ s :: after) (before ++ s.advance :: after)
  | clone (before : List Scanner) (s : Scanner) (after : List Scanner) :
      Step (before ++ s :: after) (before ++ s :: s :: after)

/-- The families that come from the scanner of a text. -/
inductive Family (source : String) : List Scanner → Prop
  | new : Family source [ofString source]
  | step {scanners scanners' : List Scanner} :
      Family source scanners → Step scanners scanners' → Family source scanners'

/-- The scanner is one that advancing and cloning lead to from the scanner of the text. -/
def Reachable (source : String) (s : Scanner) : Prop :=
  ∃ scanners, Family source scanners ∧ s ∈ scanners

variable {source : String} {motive : Scanner → Prop}

/-- What an advance preserves, a step preserves for the whole family. -/
theorem Step.forall_mem {scanners scanners' : List Scanner} (h : Step scanners scanners')
    (hadvance : ∀ s, motive s → motive s.advance) (hall : ∀ s ∈ scanners, motive s) :
    ∀ s ∈ scanners', motive s := by
  cases h with
  | advance before s after =>
    simp only [List.forall_mem_append, List.forall_mem_cons] at hall ⊢
    exact ⟨hall.1, hadvance s hall.2.1, hall.2.2⟩
  | clone before s after =>
    simp only [List.forall_mem_append, List.forall_mem_cons] at hall ⊢
    exact ⟨hall.1, hall.2.1, hall.2.1, hall.2.2⟩

/-- What an advance preserves holds of all reachable scanners. -/
theorem Reachable.rec_advance (hnew : motive (ofString source))
    (hadvance : ∀ s, motive s → motive s.advance) {s : Scanner} (h : Reachable source s) :
    motive s := by
  obtain ⟨scanners, hfamily, hs⟩ := h
  suffices hall : ∀ s ∈ scanners, motive s from hall s hs
  clear hs s
  induction hfamily with
  | new => simpa using hnew
  | step _ hstep ih => exact hstep.forall_mem hadvance ih

/-- Advancing leads from a reachable scanner to a reachable one. -/
protected theorem Reachable.advance {s : Scanner} (h : Reachable source s) :
    Reachable source s.advance := by
  obtain ⟨scanners, hfamily, hs⟩ := h
  obtain ⟨before, after, rfl⟩ := List.append_of_mem hs
  exact ⟨_, hfamily.step (.advance before s after), by simp⟩

end Scanner

/-! ## The cursor of a reachable scanner -/

/-- The cursor reads `text`: its position is behind a part of the text, of which the rest is what
is still to be read. -/
def Cursor.Reads (c : Cursor) (text : List Char) : Prop :=
  ∃ front, text = front ++ c.rest ∧ c.position = Position.origin.after front

/-- Reading a token goes on in the same text. -/
theorem Cursor.Reads.next {c : Cursor} {text : List Char} (h : c.Reads text) :
    c.next.2.Reads text := by
  obtain ⟨front, rfl, hp⟩ := h
  obtain ⟨gap, lexeme, rest, hrest, hnext⟩ := c.exists_next
  refine ⟨front ++ (gap ++ lexeme), ?_, ?_⟩
  · rw [hnext, hrest]
    simp
  · rw [hnext, hp]
    exact (Position.after_append _ _ _).symm

/-- A reachable scanner has read its token at a cursor of the text. -/
theorem Scanner.Reachable.exists_eq_ofCursor {source : String} {s : Scanner}
    (h : Reachable source s) : ∃ c, s = ofCursor c ∧ c.Reads source.toList := by
  refine h.rec_advance (motive := fun s => ∃ c, s = ofCursor c ∧ c.Reads source.toList) ?_ ?_
  · exact ⟨.ofString source, rfl, [], rfl, rfl⟩
  · rintro s ⟨c, rfl, hreads⟩
    exact ⟨c.next.2, rfl, hreads.next⟩

/-- The positions of a scanner fit the text: cursor and current token are located by counting, and
the cursor is behind the lexeme of the token, at the end of its span if it has one. -/
structure Scanner.Located (s : Scanner) (text : List Char) : Prop where
  cursor : s.cursor.position.Counts text
  start : s.token.location.start.Counts text
  stop : s.token.location.stop.Counts text
  offset_eq : s.cursor.position.offset = s.token.location.start.offset + s.token.lexeme.length
  position_eq : ∀ span, s.token.location = .range span → s.cursor.position = span.stop

/-- The token of a lexeme ends where it begins or behind the lexeme. -/
theorem Token.stop_ofLexeme (p : Position) (lexeme : List Char) :
    (ofLexeme p lexeme).location.stop = p ∨ (ofLexeme p lexeme).location.stop = p.after lexeme := by
  unfold ofLexeme
  dsimp only
  split
  · exact .inr rfl
  · exact .inl rfl

/-- A span of a token ends behind its lexeme. -/
theorem Token.stop_eq_of_range {p : Position} {lexeme : List Char} {span : Span}
    (h : (ofLexeme p lexeme).location = .range span) : span.stop = p.after lexeme := by
  unfold ofLexeme at h
  dsimp only at h
  split at h <;> cases h
  rfl

/-- A token that is read in a text is located in it. -/
theorem Scanner.located_ofCursor {c : Cursor} {text : List Char} (h : c.Reads text) :
    (ofCursor c).Located text := by
  obtain ⟨front, rfl, hp⟩ := h
  obtain ⟨gap, lexeme, rest, hrest, hnext⟩ := c.exists_next
  rw [hp, ← Position.after_append, ← Position.after_append, ← List.append_assoc] at hnext
  have hstart : (Position.origin.after (front ++ gap)).Counts (front ++ c.rest) := by
    rw [hrest, ← List.append_assoc]
    exact Position.counts_after_origin _ _
  have hstop : (Position.origin.after (front ++ gap ++ lexeme)).Counts (front ++ c.rest) := by
    rw [hrest, ← List.append_assoc, ← List.append_assoc]
    exact Position.counts_after_origin _ _
  unfold ofCursor
  rw [hnext]
  refine ⟨hstop, ?_, ?_, ?_, ?_⟩
  · rw [Token.start_location_ofLexeme]
    exact hstart
  · rcases Token.stop_ofLexeme (Position.origin.after (front ++ gap)) lexeme with heq | heq
    · rw [heq]
      exact hstart
    · rw [heq, ← Position.after_append]
      exact hstop
  · simp [Position.origin, Nat.add_assoc]
  · intro span hspan
    rw [Token.stop_eq_of_range hspan, ← Position.after_append]

/-- In every reachable scanner the cursor and both ends of the current token are at the line and
column that are counted over the text in front of them, and the cursor is where the token ends. -/
theorem located_of_reachable {source : String} {s : Scanner} (h : Scanner.Reachable source s) :
    s.Located source.toList := by
  have hnew : (Cursor.ofString source).Reads source.toList := ⟨[], rfl, rfl⟩
  -- Where the token stands follows from its cursor before it was read, so both are carried along.
  have hall : s.cursor.Reads source.toList ∧ s.Located source.toList := by
    refine h.rec_advance (motive := fun s => s.cursor.Reads source.toList ∧ s.Located source.toList)
      ⟨hnew.next, Scanner.located_ofCursor hnew⟩ ?_
    intro s hs
    exact ⟨hs.1.next, Scanner.located_ofCursor hs.1⟩
  exact hall.2

/-- A clone that advances over a line end while the first scanner stays behind. -/
theorem located_clone_advance :
    Scanner.Reachable "é\r\nab," (Scanner.ofString "é\r\nab,").advance ∧
      (Scanner.ofString "é\r\nab,").advance.cursor.position = ⟨2, 3, 5⟩ ∧
      (Scanner.ofString "é\r\nab,").advance.Located "é\r\nab,".toList := by
  have hreach : Scanner.Reachable "é\r\nab," (Scanner.ofString "é\r\nab,").advance :=
    ⟨_, .step (.step .new (.clone [] _ [])) (.advance [] _ [_]), List.mem_cons_self⟩
  exact ⟨hreach, by decide, located_of_reachable hreach⟩

end Lexis
