import Lexis.Cursor

/-!
# Lexical errors

A lexical error is a character that no token but an error token may hold, and the position where
it stands. Reading a text never fails; an error is made of each error token afterwards. `collect`
gives all of them, `tokenizeStrict` and `check` give the first one instead of an answer.
-/

namespace Lexis

/-- A character that the token grammar has no place for. -/
structure LexicalError where
  /-- The text of the error token. -/
  lexeme : String
  /-- Where the token begins. -/
  position : Position
  deriving DecidableEq, Repr

namespace LexicalError

/-- The error that a token is reported as. -/
def ofToken (t : Token) : LexicalError := ⟨t.lexeme, t.location.start⟩

/-- What is wrong, without the place. -/
def reason (e : LexicalError) : String :=
  "Unexpected character: '" ++ e.lexeme ++ "'"

/-- What is wrong and where. -/
def message (e : LexicalError) : String :=
  "Lexer error at line " ++ toString e.position.line ++ ", column " ++
    toString e.position.column ++ ": " ++ e.reason

/-- The errors of the error tokens in a list, in its order. -/
def collect (tokens : List Token) : List LexicalError :=
  (tokens.filter Token.isError).map ofToken

end LexicalError

/-- The tokens of a text without errors, or the first error of the text. -/
def tokenizeStrict (source : String) : Except LexicalError (List Token) :=
  match (tokenize source).find? Token.isError with
  | some bad => .error (.ofToken bad)
  | none => .ok (tokenize source)

/-- Succeeds on a text without errors and fails with the first error of any other. -/
def check (source : String) : Except LexicalError Unit :=
  (tokenizeStrict source).map fun _ => ()

end Lexis
