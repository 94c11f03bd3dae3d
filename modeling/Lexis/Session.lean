import Lexis.Scanner

/-!
# Reading with backtracking

A `Backtracker` is a scanner with a stack of scanners saved on the way; a `Move` works on both. A
`Session` adds a mark: a location that grows over the tokens that are merged into it. The mark
belongs to the session and not to the scanner, so going back to a saved scanner leaves it alone.
-/

namespace Lexis

/-- A scanner, and the scanners saved to come back to, the last saved one first. -/
structure Backtracker where
  scanner : Scanner
  saved : List Scanner
  deriving DecidableEq, Repr

/-- What a reader that backtracks does with its scanner. -/
inductive Move where
  /-- Looks at the current token. -/
  | current
  /-- Goes on to the next token. -/
  | advance
  /-- Goes on to the end of the text. -/
  | drain
  /-- Keeps the scanner as it is now. -/
  | save
  /-- Goes back to the scanner saved last and drops it from the saved ones. -/
  | restore
  /-- Exchanges the scanner with the one saved last. -/
  | swap
  deriving DecidableEq, Repr

namespace Backtracker

/-- The reader at the first token of a text. -/
def ofString (source : String) : Backtracker := ⟨.ofString source, []⟩

/-- Makes a move. Without a saved scanner there is nothing to restore or to swap. -/
def move (b : Backtracker) : Move → Backtracker
  | .current => b
  | .advance => { b with scanner := b.scanner.advance }
  | .drain => { b with scanner := b.scanner.drain.1 }
  | .save => { b with saved := b.scanner :: b.saved }
  | .restore =>
    match b.saved with
    | [] => b
    | s :: saved => ⟨s, saved⟩
  | .swap =>
    match b.saved with
    | [] => b
    | s :: saved => ⟨s, b.scanner :: saved⟩

/-- How many times a move advances the scanner. -/
def advances (b : Backtracker) : Move → Nat
  | .advance => 1
  | .drain => b.scanner.drain.2
  | .current | .save | .restore | .swap => 0

end Backtracker

/-- A reader that backtracks, and the location it has marked. -/
structure Session where
  reader : Backtracker
  mark : Option Location
  deriving DecidableEq, Repr

/-- What is done in a session. -/
inductive Action where
  | move (m : Move)
  /-- Marks the current token. -/
  | mark
  /-- Merges the current token into the mark, or marks it if nothing is marked. -/
  | merge
  deriving DecidableEq, Repr

namespace Session

/-- The session at the first token of a text. -/
def ofString (source : String) : Session := ⟨.ofString source, none⟩

/-- The current token. -/
def token (s : Session) : Token := s.reader.scanner.token

/-- Whether the current token marks the end of the text. -/
def atEnd (s : Session) : Bool := s.reader.scanner.atEnd

/-- The number of saved scanners. -/
def depth (s : Session) : Nat := s.reader.saved.length

/-- Does one thing in the session. -/
def act (s : Session) : Action → Except InvertedSpan Session
  | .move m => .ok { s with reader := s.reader.move m }
  | .mark => .ok { s with mark := some s.token.location }
  | .merge =>
    match s.mark with
    | none => .ok { s with mark := some s.token.location }
    | some l => do .ok { s with mark := some (← l.merge s.token.location) }

/-- How many times an action advances the scanner. -/
def advances (s : Session) : Action → Nat
  | .move m => s.reader.advances m
  | .mark | .merge => 0

end Session

end Lexis
