import Lexis.Text.Padded
import Lexis.Text.Quoted
import Lexis.Text.Unprintable
import Lexis.Token

/-!
# Listings

Tokens as text for a reader. A listing has one line for each token: the location, the display
name of the kind in columns of twelve and sixteen characters, and the quoted lexeme. A single
token is described by name, lexeme and location. Both show lines and columns and leave out
offsets. Line feeds are quoted, so a line of a listing ends where its token ends. The characters
to be hidden in a lexeme are a parameter of each function that ends in `With`.
-/

namespace Lexis

namespace Token

/-- A token in a message: name, quoted lexeme and location. -/
def describeWith (hidden : Char → Bool) (t : Token) : String :=
  t.kind.displayName ++ " " ++ Text.quote hidden t.lexeme ++ " @ " ++ t.location.render

/-- A token in a message, with unprintable characters hidden. -/
def describe (t : Token) : String := t.describeWith Text.isUnprintable

/-- The line of a token in a listing. -/
def lineWith (hidden : Char → Bool) (t : Token) : String :=
  Text.padRight 12 t.location.render ++ " " ++ Text.padRight 16 t.kind.displayName ++ " " ++
    Text.quote hidden t.lexeme ++ "\n"

end Token

/-- The listing of tokens: their lines in order. -/
def listingWith (hidden : Char → Bool) (tokens : List Token) : String :=
  String.join (tokens.map (Token.lineWith hidden))

/-- The listing of tokens, with unprintable characters hidden. -/
def listing (tokens : List Token) : String := listingWith Text.isUnprintable tokens

end Lexis
