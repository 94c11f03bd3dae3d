/-!
# Token kinds

The lexical categories and their names. A kind has two names: the full one, by which structured
output tells kinds apart, and a display name, which leaves out that a word is a keyword. The
keyword table recognises whole words only and minds case.
-/

namespace Lexis

/-- The lexical categories. -/
inductive TokenKind where
  /-- A word that begins with an upper-case letter. -/
  | upperIdentifier
  /-- A word that begins with a lower-case letter. -/
  | lowerIdentifier
  /-- Reserved for character literals; no text yields one yet. -/
  | literalChar
  /-- Reserved for string literals; no text yields one yet. -/
  | literalString
  /-- Digits, with a sign or without. -/
  | literalInt
  | keywordTrue
  | keywordFalse
  | keywordAs
  | comma
  | minus
  /-- The end of the text, which the last token of a stream marks. -/
  | endOfStream
  /-- A single character that belongs to no other kind. -/
  | error
  deriving DecidableEq, Repr

namespace TokenKind

/-- All kinds, in the order of their declaration. -/
def all : List TokenKind :=
  [.upperIdentifier, .lowerIdentifier, .literalChar, .literalString, .literalInt, .keywordTrue,
    .keywordFalse, .keywordAs, .comma, .minus, .endOfStream, .error]

/-- The full name of a kind. -/
def name : TokenKind → String
  | .upperIdentifier => "UpperIdentifier"
  | .lowerIdentifier => "LowerIdentifier"
  | .literalChar => "LiteralChar"
  | .literalString => "LiteralString"
  | .literalInt => "LiteralInt"
  | .keywordTrue => "KeywordTrue"
  | .keywordFalse => "KeywordFalse"
  | .keywordAs => "KeywordAs"
  | .comma => "Comma"
  | .minus => "Minus"
  | .endOfStream => "EndOfStream"
  | .error => "Error"

/-- The name of a kind in messages and listings: keywords go without their mark. -/
def displayName : TokenKind → String
  | .keywordTrue => "True"
  | .keywordFalse => "False"
  | .keywordAs => "As"
  | kind => kind.name

/-- The kind of a full name. -/
def ofName? (name : String) : Option TokenKind :=
  all.find? (·.name = name)

/-- Full names tell all kinds apart. -/
theorem ofName?_name (kind : TokenKind) : ofName? kind.name = some kind := by
  cases kind <;> decide

/-- The kinds of the reserved words. -/
def isKeyword : TokenKind → Bool
  | .keywordTrue | .keywordFalse | .keywordAs => true
  | _ => false

/-- The keyword table: the kind of a reserved word. -/
def keyword? (word : String) : Option TokenKind :=
  if word = "as" then some .keywordAs
  else if word = "True" then some .keywordTrue
  else if word = "False" then some .keywordFalse
  else none

/-- The kinds of words and integers. Their tokens are located by a span, all others by the point
where they begin. -/
def isSpanned : TokenKind → Bool
  | .upperIdentifier | .lowerIdentifier | .literalInt => true
  | kind => kind.isKeyword

end TokenKind

end Lexis
