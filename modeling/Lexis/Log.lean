import Lexis.Scanner

/-!
# The log of a run

Reading a text to its end can be followed by events: one when the scanner has come to a token, the
first token included, and one when the stream is complete. Every event has a level, and a threshold
keeps the events that are at least as severe; a `Record` is all that is shown of one. `Scanner.run`
reads on from a scanner and records the events on its way, so the log tells what the scanner did and
is not made from the finished stream.
-/

namespace Lexis

/-- How much an event matters, from the least. -/
inductive Level where
  | trace
  | debug
  | info
  deriving DecidableEq, Repr

namespace Level

/-- The place of a level, counted from the least. -/
def rank : Level → Nat
  | .trace => 0
  | .debug => 1
  | .info => 2

/-- The name of a level. -/
def name : Level → String
  | .trace => "TRACE"
  | .debug => "DEBUG"
  | .info => "INFO"

end Level

/-- What happens while a text is read. -/
inductive Event where
  /-- The scanner has come to a token of this kind and text, which begins at `start`. -/
  | advanced (kind : TokenKind) (lexeme : String) (start : Position)
  /-- The text has been read: the numbers of all tokens and of the error tokens among them. -/
  | tokenized (tokens errors : Nat)
  deriving DecidableEq, Repr

namespace Event

/-- Single tokens are traced; the end of a run is told for debugging. -/
def level : Event → Level
  | .advanced .. => .trace
  | .tokenized .. => .debug

/-- What happened, in a word or two. -/
def message : Event → String
  | .advanced .. => "advance"
  | .tokenized .. => "tokenized input"

/-- What is told under one name: a text, as it is, or a number. -/
inductive Value where
  | text (content : String)
  | number (value : Nat)
  deriving DecidableEq, Repr

/-- What is told along with the message, by name. A kind goes by its display name. -/
def fields : Event → List (String × Value)
  | .advanced kind lexeme start =>
    [("kind", .text kind.displayName), ("lexeme", .text lexeme), ("offset", .number start.offset),
      ("line", .number start.line), ("column", .number start.column)]
  | .tokenized tokens errors => [("tokens", .number tokens), ("errors", .number errors)]

/-- The event of coming to a token. -/
def ofToken (t : Token) : Event := .advanced t.kind t.lexeme t.location.start

end Event

/-- All that a log shows of an event. -/
structure Record where
  level : Level
  message : String
  fields : List (String × Event.Value)
  deriving DecidableEq, Repr

/-- The record of an event. -/
def Event.record (e : Event) : Record := ⟨e.level, e.message, e.fields⟩

/-- Reads on to the end of the text: the current token and all behind it, and the events of
coming to the latter. -/
def Scanner.run (s : Scanner) : List Token × List Event :=
  if s.atEnd then ([s.token], [])
  else
    let next := s.advance
    let (tokens, events) := next.run
    (s.token :: tokens, .ofToken next.token :: events)
termination_by s.pending
decreasing_by exact Scanner.pending_advance_lt ‹_›

/-- All that happens while a text is read, in order. -/
def events (source : String) : List Event :=
  let first := Scanner.ofString source
  let (tokens, events) := first.run
  .ofToken first.token :: events ++ [.tokenized tokens.length (tokens.countP Token.isError)]

/-- The events of reading a text that a threshold keeps. -/
def eventsFrom (threshold : Level) (source : String) : List Event :=
  (events source).filter fun e => threshold.rank ≤ e.level.rank

end Lexis
