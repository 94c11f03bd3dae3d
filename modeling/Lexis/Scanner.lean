import Lexis.Cursor

/-!
# Scanners

A scanner hands out the tokens of a text one at a time. It always holds a current token, from its
creation on, and the cursor behind that token. `advance` goes to the next token; at the end of
the text it stays where it is. Scanners are values, so an earlier state can be kept and gone back
to. `drain` advances to the end: the number of advances still possible is bounded by `pending`,
which every advance makes smaller (`pending_advance_lt`).
-/

namespace Lexis

/-- A current token, and the cursor behind it. -/
structure Scanner where
  token : Token
  cursor : Cursor
  deriving DecidableEq, Repr

namespace Scanner

/-- The scanner on the first token at or behind `c`. -/
def ofCursor (c : Cursor) : Scanner := ⟨c.next.1, c.next.2⟩

/-- The scanner on the first token of a text. -/
def ofString (source : String) : Scanner := ofCursor (.ofString source)

/-- Goes on to the next token. -/
def advance (s : Scanner) : Scanner := ofCursor s.cursor

/-- Whether the current token marks the end of the text. -/
def atEnd (s : Scanner) : Bool := s.token.isEnd

/-- A bound on the number of advances before the end of the text. -/
def pending (s : Scanner) : Nat := s.cursor.rest.length + if s.atEnd then 0 else 1

/-- A scanner is at the end of the text if nothing but white space is left. -/
theorem atEnd_ofCursor_of_rest {c : Cursor} (h : c.skipSpace.rest = []) :
    (ofCursor c).atEnd := by
  simp [ofCursor, atEnd, Token.isEnd, Cursor.next, Token.ofLexeme, h, Lexeme.kind]

/-- There is one advance for each character that is left, and one more, at most. -/
theorem pending_le (s : Scanner) : s.pending ≤ s.cursor.rest.length + 1 := by
  unfold pending
  split <;> omega

/-- Advancing gets nearer to the end of the text. -/
theorem pending_advance_lt {s : Scanner} (h : ¬ s.atEnd) : s.advance.pending < s.pending := by
  have hs : s.pending = s.cursor.rest.length + 1 := by simp [pending, h]
  rw [hs]
  by_cases hrest : s.cursor.skipSpace.rest = []
  · have hend : s.advance.atEnd := atEnd_ofCursor_of_rest hrest
    have hle : s.advance.cursor.rest.length ≤ s.cursor.rest.length := s.cursor.length_rest_next_le
    simp only [pending, hend, if_true]
    omega
  · have hlt : s.advance.cursor.rest.length < s.cursor.rest.length :=
      Cursor.length_rest_next_lt hrest
    have hle := s.advance.pending_le
    omega

/-- Advances to the end of the text, and counts the advances. -/
def drain (s : Scanner) : Scanner × Nat :=
  if s.atEnd then (s, 0)
  else
    let (last, advances) := s.advance.drain
    (last, advances + 1)
termination_by s.pending
decreasing_by exact pending_advance_lt ‹_›

end Scanner

end Lexis
