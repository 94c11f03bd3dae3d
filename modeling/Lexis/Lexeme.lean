import Lexis.CharClass
import Lexis.Token.Kind

/-!
# Lexemes

The token grammar without positions. A lexeme is its first character and the longest run of
characters behind it that continue it (`isContinuedBy`); its kind is read off the lexeme alone.
A minus sign is continued by digits, so it makes an integer with them and stands for itself
without; a word is looked up in the keyword table when it is complete. At the end of the text
the lexeme is empty.
-/

namespace Lexis.Lexeme

/-- The lexeme with which a text begins; empty at the end of the text. -/
def front : List Char → List Char
  | [] => []
  | c :: rest => c :: rest.takeWhile (isContinuedBy c)

/-- The kind of a lexeme. -/
def kind : List Char → TokenKind
  | [] => .endOfStream
  | c :: rest =>
    match CharClass.of c with
    | .comma => .comma
    | .minus => if rest = [] then .minus else .literalInt
    | .digit => .literalInt
    | .lower => (TokenKind.keyword? (String.ofList (c :: rest))).getD .lowerIdentifier
    | .upper => (TokenKind.keyword? (String.ofList (c :: rest))).getD .upperIdentifier
    | .newline | .blank | .other => .error

@[simp] theorem front_nil : front [] = [] := rfl

/-- Only the end of the text has an empty lexeme. -/
@[simp] theorem front_eq_nil_iff {cs : List Char} : front cs = [] ↔ cs = [] := by
  cases cs <;> simp [front]

end Lexis.Lexeme
