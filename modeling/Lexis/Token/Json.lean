import Lexis.Json
import Lexis.Token

/-!
# Tokens in JSON

The structured form of tokens: an object with the full name of the kind, the lexeme and the
location. A location is tagged as a position or as a range by its first member. Nothing is left
out, so the tokens can be read back from the text.
-/

namespace Lexis

/-- The members of a position. -/
def Position.members (p : Position) : List (String × Json) :=
  [("line", .num p.line), ("column", .num p.column), ("offset", .num p.offset)]

/-- A location with its tag. -/
def Location.toJson : Location → Json
  | .point p => .obj (("type", .str "position") :: p.members)
  | .range s =>
    .obj [("type", .str "range"), ("start", .obj s.start.members), ("end", .obj s.stop.members)]

/-- A token as an object. -/
def Token.toJson (t : Token) : Json :=
  .obj [("kind", .str t.kind.name), ("lexeme", .str t.lexeme), ("location", t.location.toJson)]

/-- Tokens as the text of a JSON array. -/
def jsonListing (tokens : List Token) : String :=
  (Json.arr (tokens.map Token.toJson)).pretty

end Lexis
