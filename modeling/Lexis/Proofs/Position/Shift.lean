import Lexis.Token

/-!
# Moving positions to where a text begins

The positions of a text are counted from its own beginning. `Position.shift base` carries them to
where they are when the text stands behind another one and begins at `base`. Going over characters
and moving commute (`Position.after_shift`), so whatever is read in a text is read in the moved text
as well, and is moved with it (`Token.shift_ofLexeme`).
-/

namespace Lexis

namespace Position

/-- Lines and columns are counted from one. -/
structure OneBased (p : Position) : Prop where
  line_pos : 0 < p.line
  column_pos : 0 < p.column

/-- Where the position `q` of a text is when the text begins at `base`. Its first line goes on from
the column of `base`; the columns of the lines behind stay as they are. -/
def shift (base q : Position) : Position :=
  if q.line = 1 then ⟨base.line, q.column + base.column - 1, q.offset + base.offset⟩
  else ⟨q.line + base.line - 1, q.column, q.offset + base.offset⟩

/-- A text begins at line and column one. -/
theorem oneBased_origin : OneBased origin := ⟨Nat.one_pos, Nat.one_pos⟩

/-- Behind a character lines and columns are counted from one. -/
theorem OneBased.next {p : Position} (h : p.OneBased) (c : Char) : (p.next c).OneBased := by
  unfold Position.next
  split
  · exact ⟨Nat.succ_pos _, Nat.one_pos⟩
  · exact ⟨h.line_pos, Nat.succ_pos _⟩

/-- Behind any text lines and columns are counted from one. -/
theorem OneBased.after {p : Position} (h : p.OneBased) (cs : List Char) :
    (p.after cs).OneBased := by
  induction cs generalizing p with
  | nil => exact h
  | cons c cs ih => exact ih (h.next c)

/-- The beginning of a text is moved to where the text begins. -/
@[simp] theorem shift_origin (base : Position) : base.shift origin = base := by
  simp [shift, origin]

/-- A step over a character is the same step after moving. -/
theorem next_shift (base : Position) {q : Position} (h : q.OneBased) (c : Char) :
    (base.shift q).next c = base.shift (q.next c) := by
  have hline := h.line_pos
  have hcolumn := h.column_pos
  by_cases hnewline : CharClass.of c = .newline
  · -- The line that is opened is not the first one, whichever line was left.
    have hopened : q.line + 1 ≠ 1 := by omega
    rw [next, next, if_pos hnewline, if_pos hnewline, shift, shift, if_neg hopened]
    split <;> simp <;> omega
  · rw [next, next, if_neg hnewline, if_neg hnewline, shift, shift]
    split <;> simp <;> omega

/-- Going over a text leads to the same place before and after moving. -/
theorem after_shift (base : Position) {q : Position} (h : q.OneBased) (cs : List Char) :
    (base.shift q).after cs = base.shift (q.after cs) := by
  induction cs generalizing q with
  | nil => rfl
  | cons c cs ih => rw [after_cons, after_cons, next_shift base h, ih (h.next c)]

end Position

/-- Moves both ends of a span. -/
def Span.shift (base : Position) (s : Span) : Span := ⟨base.shift s.start, base.shift s.stop⟩

/-- Moves a location, which keeps its shape. -/
def Location.shift (base : Position) : Location → Location
  | .point p => .point (base.shift p)
  | .range s => .range (s.shift base)

/-- Moves a token, which keeps its kind and its text. -/
def Token.shift (base : Position) (t : Token) : Token :=
  { t with location := t.location.shift base }

/-- The token of a lexeme is moved with the place of the lexeme. -/
theorem Token.shift_ofLexeme (base : Position) {q : Position} (h : q.OneBased)
    (lexeme : List Char) : (ofLexeme q lexeme).shift base = ofLexeme (base.shift q) lexeme := by
  unfold ofLexeme Token.shift
  split
  · simp only [Location.shift, Span.shift, Position.after_shift base h]
  · rfl

end Lexis
