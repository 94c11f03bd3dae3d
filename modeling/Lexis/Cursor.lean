import Lexis.Token

/-!
# Cursors and token streams

A cursor is a position together with the text that is still to be read from there. It moves by
`skip`, which carries the position over the characters passed. Reading a token passes over white
space and then over one lexeme; `tokens` reads to the end of the text, which the last token of
the stream marks. Each lexeme but that last one is non-empty, so the stream is finite:
`length_rest_next_lt` says that the text to be read gets shorter.
-/

namespace Lexis

/-- A position in a text and the text from there on. -/
structure Cursor where
  position : Position
  /-- The characters that are still to be read. -/
  rest : List Char
  deriving DecidableEq, Repr

namespace Cursor

/-- The cursor at the beginning of a text. -/
def ofString (source : String) : Cursor := ⟨.origin, source.toList⟩

/-- The cursor `n` characters further on, or at the end of the text if there are fewer. -/
def skip (c : Cursor) (n : Nat) : Cursor :=
  ⟨c.position.after (c.rest.take n), c.rest.drop n⟩

/-- The cursor behind the white space at `c`. -/
def skipSpace (c : Cursor) : Cursor :=
  c.skip (c.rest.takeWhile isSpace).length

/-- The first token at or behind `c`, and the cursor behind that token. -/
def next (c : Cursor) : Token × Cursor :=
  let c := c.skipSpace
  let lexeme := Lexeme.front c.rest
  (.ofLexeme c.position lexeme, c.skip lexeme.length)

@[simp] theorem length_rest_skip (c : Cursor) (n : Nat) :
    (c.skip n).rest.length = c.rest.length - n := by
  simp [skip]

/-- Going over white space leaves no more to be read. -/
theorem length_rest_skipSpace_le (c : Cursor) : c.skipSpace.rest.length ≤ c.rest.length := by
  simp [skipSpace]

/-- Reading a token leaves no more to be read, at the end of the text either. -/
theorem length_rest_next_le (c : Cursor) : c.next.2.rest.length ≤ c.rest.length := by
  have := c.length_rest_skipSpace_le
  simp only [next, length_rest_skip]
  omega

/-- Reading a token before the end of the text leaves less to be read. -/
theorem length_rest_next_lt {c : Cursor} (h : c.skipSpace.rest ≠ []) :
    c.next.2.rest.length < c.rest.length := by
  have hle := c.length_rest_skipSpace_le
  have hpos := List.length_pos_iff.2 h
  have hfront := List.length_pos_iff.2 (mt Lexeme.front_eq_nil_iff.1 h)
  simp only [next, length_rest_skip]
  omega

/-- The tokens from `c` to the end of the text. -/
def tokens (c : Cursor) : List Token :=
  if c.skipSpace.rest = [] then [c.next.1] else c.next.1 :: c.next.2.tokens
termination_by c.rest.length
decreasing_by exact length_rest_next_lt ‹_›

end Cursor

/-- The tokens of a text. The last one, and no other, marks the end of the text. -/
def tokenize (source : String) : List Token := (Cursor.ofString source).tokens

end Lexis
