import Lexis.Lexeme
import Lexis.Location

/-!
# Tokens

A token is a kind, the text it was read from, and where that text stands. `Token.ofLexeme` is
the token that a lexeme makes at a position: words and integers are located by the span they
cover, single characters and the end of the text by the point where they begin.
-/

namespace Lexis

/-- A classified and located piece of text. -/
structure Token where
  kind : TokenKind
  /-- The text of the token, as it stands in the source. -/
  lexeme : String
  location : Location
  deriving DecidableEq, Repr

namespace Token

/-- The token that a lexeme makes where it begins at `start`. -/
def ofLexeme (start : Position) (lexeme : List Char) : Token where
  kind := Lexeme.kind lexeme
  lexeme := String.ofList lexeme
  location :=
    if (Lexeme.kind lexeme).isSpanned then .range ⟨start, start.after lexeme⟩
    else .point start

@[simp] theorem kind_ofLexeme (start : Position) (lexeme : List Char) :
    (ofLexeme start lexeme).kind = Lexeme.kind lexeme := rfl

@[simp] theorem lexeme_ofLexeme (start : Position) (lexeme : List Char) :
    (ofLexeme start lexeme).lexeme = String.ofList lexeme := rfl

/-- A token begins where its lexeme begins. -/
@[simp] theorem start_location_ofLexeme (start : Position) (lexeme : List Char) :
    (ofLexeme start lexeme).location.start = start := by
  unfold ofLexeme
  dsimp only
  split <;> rfl

/-- Whether the token marks a character that belongs to no other kind. -/
def isError (t : Token) : Bool := t.kind = .error

/-- Whether the token marks the end of the text. -/
def isEnd (t : Token) : Bool := t.kind = .endOfStream

end Token

end Lexis
