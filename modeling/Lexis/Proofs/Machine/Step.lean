import Lexis.Scanner

/-!
# A machine that reads by index

Scanners read lists of characters and count without bound. A `Machine` reads an array by index and
counts in words of 64 bits, one small step at a time: it goes over one character, looks at one, or
completes a token. Whatever can go wrong in a step makes it fail with a `Fault`: an index that the
text does not have, a lexeme that cannot be cut out, a span that ends before it starts, or a sum
that does not fit a word. `Machine.Reachable` holds of every state that a machine gets into from the
beginning of a text, inside its loops and between tokens. Tokenizing a text is reading the tokens of
such a machine up to the end of the text, and gets it into no other states.
-/

namespace Lexis

/-- Why a machine cannot go on. -/
inductive Fault where
  /-- A character is asked for at an index that the text does not have. -/
  | index (i : Nat)
  /-- A lexeme is cut out that is empty or does not lie in the text. -/
  | slice (start stop : Nat)
  /-- A span is made that ends before it starts. -/
  | span (e : InvertedSpan)
  /-- One is added to the largest word. -/
  | overflow (word : UInt64)
  deriving DecidableEq, Repr

/-- What a machine is about. -/
inductive Phase where
  /-- It goes over white space. -/
  | skipping
  /-- It stands where a token begins. -/
  | starting
  /-- It goes over the digits of a number that began at `start`, perhaps with a sign. -/
  | number (start : Position)
  /-- It goes over a word that began at `start`, of the kind `fallback` if it is not reserved. -/
  | word (start : Position) (fallback : TokenKind)
  /-- Its token is complete. -/
  | resting
  deriving DecidableEq, Repr

/-- A text, a cursor in it and the current token, as they are in memory. -/
structure Machine where
  text : Array Char
  offset : UInt64
  line : UInt64
  column : UInt64
  token : Token
  phase : Phase

namespace Machine

/-- The machine at the beginning of a text, which has no token yet. -/
def ofString (source : String) : Machine where
  text := source.toList.toArray
  offset := 0
  line := 1
  column := 1
  token := ⟨.endOfStream, "", .point .origin⟩
  phase := .skipping

/-! ## What can fail -/

/-- The word that is larger by one. -/
def increment (word : UInt64) : Except Fault UInt64 :=
  if word.toNat + 1 < UInt64.size then .ok (word + 1) else .error (.overflow word)

/-- The character at an index. -/
def charAt (m : Machine) (i : UInt64) : Except Fault Char :=
  match m.text[i.toNat]? with
  | some c => .ok c
  | none => .error (.index i.toNat)

/-- The text between two indices. -/
def slice (m : Machine) (start stop : Nat) : Except Fault String :=
  if start < stop ∧ stop ≤ m.text.size then .ok (String.ofList (m.text.extract start stop).toList)
  else .error (.slice start stop)

/-! ## The cursor -/

/-- The position of the cursor. -/
def position (m : Machine) : Position := ⟨m.line.toNat, m.column.toNat, m.offset.toNat⟩

/-- Whether the cursor is at the end of the text. -/
def atEnd (m : Machine) : Bool := m.text.size ≤ m.offset.toNat

/-- The character at the cursor, or a null character at the end of the text. -/
def peek (m : Machine) : Except Fault Char :=
  if m.atEnd then .ok '\x00' else m.charAt m.offset

/-- The character behind the one at the cursor, or a null character if there is none. -/
def peekNext (m : Machine) : Except Fault Char := do
  let next ← increment m.offset
  if m.text.size ≤ next.toNat then return '\x00' else m.charAt next

/-- Goes over a character, unless the cursor is at the end of the text. -/
def bump (m : Machine) : Except Fault Machine := do
  if m.atEnd then return m
  else if (← m.charAt m.offset) = '\n' then
    return { m with line := ← increment m.line, column := 1, offset := ← increment m.offset }
  else
    return { m with column := ← increment m.column, offset := ← increment m.offset }

/-! ## Tokens -/

/-- The token of all that was read from `start` on. -/
def spanToken (m : Machine) (kind : TokenKind) (start : Position) : Except Fault Token := do
  let lexeme ← m.slice start.offset m.offset.toNat
  match Span.between start m.position with
  | .ok span => return ⟨kind, lexeme, .range span⟩
  | .error e => throw (.span e)

/-- The machine with a complete token. -/
def rest (m : Machine) (token : Token) : Machine := { m with token, phase := .resting }

/-- Goes over the character `c` at the cursor, which makes a token alone. -/
def single (m : Machine) (kind : TokenKind) (c : Char) : Except Fault Machine := do
  return (← m.bump).rest ⟨kind, String.ofList [c], .point m.position⟩

/-- Begins the token at the cursor. A minus sign is the sign of a number only if a digit follows. -/
def start (m : Machine) : Except Fault Machine := do
  if m.atEnd then return m.rest ⟨.endOfStream, "", .point m.position⟩
  let c ← m.peek
  if c = ',' then m.single .comma c
  else if c = '-' then
    if (← m.peekNext).isDigit then return { ← m.bump with phase := .number m.position }
    else m.single .minus c
  else if c.isDigit then return { m with phase := .number m.position }
  else if c.isLower then return { ← m.bump with phase := .word m.position .lowerIdentifier }
  else if c.isUpper then return { ← m.bump with phase := .word m.position .upperIdentifier }
  else m.single .error c

/-- One step. A machine that rests goes on to the next token. -/
def step (m : Machine) : Except Fault Machine := do
  match m.phase with
  | .skipping => if isSpace (← m.peek) then m.bump else return { m with phase := .starting }
  | .starting => m.start
  | .number start =>
    if (← m.peek).isDigit then m.bump else return m.rest (← m.spanToken .literalInt start)
  | .word start fallback =>
    if (← m.peek).isAlphanum then m.bump
    else
      let token ← m.spanToken fallback start
      return m.rest { token with kind := (TokenKind.keyword? token.lexeme).getD fallback }
  | .resting => return { m with phase := .skipping }

/-- The states that a machine gets into on a text. -/
inductive Reachable (source : String) : Machine → Prop
  | new : Reachable source (ofString source)
  | step {m m' : Machine} : Reachable source m → m.step = .ok m' → Reachable source m'

end Machine

end Lexis
