/-!
# Quoted text

A text between double quotes, in one line and in visible characters. The quote and the backslash
are written behind a backslash; so are the null character, tab, carriage return and line feed, as
`\0`, `\t`, `\r` and `\n`. Any other character that is to be hidden is written as `\u` and its
code point in lower-case hexadecimal digits between braces, as few as it takes. Which characters
those are is a parameter: the form can be read back whichever they are.
-/

namespace Lexis.Text

namespace Quoted

/-- The code point of a character in hexadecimal, behind a backslash. -/
def codePoint (c : Char) : List Char :=
  ['\\', 'u', '\x7b'] ++ Nat.toDigits 16 c.toNat ++ ['\x7d']

/-- How a character is written between quotes, if those in `hidden` are to be hidden. -/
def encodeChar (hidden : Char → Bool) (c : Char) : List Char :=
  if c = '\x00' then ['\\', '0']
  else if c = '\t' then ['\\', 't']
  else if c = '\r' then ['\\', 'r']
  else if c = '\n' then ['\\', 'n']
  else if c = '"' then ['\\', '"']
  else if c = '\\' then ['\\', '\\']
  else if hidden c then codePoint c
  else [c]

/-- How a text is written between quotes. -/
def encode (hidden : Char → Bool) (text : List Char) : List Char :=
  text.flatMap (encodeChar hidden)

end Quoted

/-- A text in double quotes, with the characters in `hidden` written as code points. -/
def quote (hidden : Char → Bool) (text : String) : String :=
  String.ofList ('"' :: Quoted.encode hidden text.toList ++ ['"'])

end Lexis.Text
