/-!
# JSON

JSON values as far as tokens need them, and their printed form: an indented text in which each
element of an array and each member of an object has a line of its own, two spaces deeper than
its brackets, and empty arrays and objects close on the spot. Members keep their order. In a
string the quote, the backslash and the characters below U+0020 are escaped, those of the latter
that have a letter by that letter and the others by four hexadecimal digits; everything else is
written as it is.
-/

namespace Lexis

/-- A JSON value without fractions, signs, truth values and nulls. -/
inductive Json where
  | num (value : Nat)
  | str (value : String)
  | arr (items : List Json)
  | obj (members : List (String × Json))
  deriving Repr

namespace Json

/-- A control character as four hexadecimal digits, behind a backslash. -/
def escapeCode (c : Char) : List Char :=
  ['\\', 'u', '0', '0', Nat.digitChar (c.toNat / 16), Nat.digitChar (c.toNat % 16)]

/-- How a character is written in a string. -/
def escapeChar (c : Char) : List Char :=
  if c = '"' then ['\\', '"']
  else if c = '\\' then ['\\', '\\']
  else if c = '\x08' then ['\\', 'b']
  else if c = '\t' then ['\\', 't']
  else if c = '\n' then ['\\', 'n']
  else if c = '\x0c' then ['\\', 'f']
  else if c = '\r' then ['\\', 'r']
  else if c.toNat < 0x20 then escapeCode c
  else [c]

/-- A string between quotes. -/
def quote (text : String) : List Char :=
  '"' :: text.toList.flatMap escapeChar ++ ['"']

/-- A new line at a level of nesting. -/
def newline (depth : Nat) : List Char := '\n' :: List.replicate (2 * depth) ' '

mutual

/-- The printed form of a value at a level of nesting. -/
def print (depth : Nat) : Json → List Char
  | .num n => Nat.toDigits 10 n
  | .str s => quote s
  | .arr [] => ['[', ']']
  | .arr (item :: items) =>
    '[' :: newline (depth + 1) ++ print (depth + 1) item ++ printItems (depth + 1) items ++
      newline depth ++ [']']
  | .obj [] => ['\x7b', '\x7d']
  | .obj ((key, value) :: members) =>
    '\x7b' :: newline (depth + 1) ++ quote key ++ [':', ' '] ++ print (depth + 1) value ++
      printMembers (depth + 1) members ++ newline depth ++ ['\x7d']

/-- The printed form of the elements behind the first one. -/
def printItems (depth : Nat) : List Json → List Char
  | [] => []
  | item :: items => ',' :: newline depth ++ print depth item ++ printItems depth items

/-- The printed form of the members behind the first one. -/
def printMembers (depth : Nat) : List (String × Json) → List Char
  | [] => []
  | (key, value) :: members =>
    ',' :: newline depth ++ quote key ++ [':', ' '] ++ print depth value ++
      printMembers depth members

end

/-- The printed form of a value, without a line feed at its end. -/
def pretty (value : Json) : String := String.ofList (value.print 0)

end Json

end Lexis
