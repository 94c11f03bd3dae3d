import Lexis.CharClass

/-!
# Positions in a text

A position is a place between two characters, told as a line and a column counted from one, and
as an offset: the number of characters before it. `Position.after` carries a position over a
piece of text one character at a time; a line feed opens a new line and every other character,
tabs and carriage returns included, is one column wide. Positions are compared by offset.
-/

namespace Lexis

/-- A place in a text. -/
structure Position where
  /-- The line, counted from one. -/
  line : Nat
  /-- The column in its line, counted from one. -/
  column : Nat
  /-- The number of characters before it in the text. -/
  offset : Nat
  deriving DecidableEq, Repr

namespace Position

/-- The beginning of a text. -/
def origin : Position := ⟨1, 1, 0⟩

/-- The position behind the character `c` that stands at `p`. -/
def next (p : Position) (c : Char) : Position :=
  if CharClass.of c = .newline then ⟨p.line + 1, 1, p.offset + 1⟩
  else ⟨p.line, p.column + 1, p.offset + 1⟩

/-- The position behind the text `cs` that begins at `p`. -/
def after (p : Position) (cs : List Char) : Position :=
  cs.foldl next p

/-- The position with the smaller offset; of two with the same offset, the second. -/
def earlier (a b : Position) : Position :=
  if a.offset < b.offset then a else b

/-- The position with the larger offset; of two with the same offset, the second. -/
def later (a b : Position) : Position :=
  if a.offset > b.offset then a else b

/-- Line and column, as messages and listings show them. -/
def render (p : Position) : String :=
  toString p.line ++ ":" ++ toString p.column

@[simp] theorem after_nil (p : Position) : p.after [] = p := rfl

@[simp] theorem after_cons (p : Position) (c : Char) (cs : List Char) :
    p.after (c :: cs) = (p.next c).after cs := rfl

/-- Pieces of text are gone over one after the other. -/
theorem after_append (p : Position) (as bs : List Char) :
    p.after (as ++ bs) = (p.after as).after bs := by
  simp [after]

@[simp] theorem offset_next (p : Position) (c : Char) : (p.next c).offset = p.offset + 1 := by
  unfold next; split <;> rfl

/-- Offsets count characters. -/
@[simp] theorem offset_after (p : Position) (cs : List Char) :
    (p.after cs).offset = p.offset + cs.length := by
  induction cs generalizing p with
  | nil => rfl
  | cons c cs ih => rw [after_cons, ih, offset_next, List.length_cons]; omega

/-- The end of a text is at its length. -/
theorem offset_after_origin (cs : List Char) : (origin.after cs).offset = cs.length := by
  rw [offset_after]
  exact Nat.zero_add _

end Position

end Lexis
