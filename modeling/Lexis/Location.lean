import Lexis.Position

/-!
# Locations

Where a token, or anything built of tokens, stands in a text: at a point or over a span. Two
locations merge to the span that reaches from the earlier start to the later end, and a location
merged with itself stays as it is. All comparisons look at offsets alone, so a merge is defined
for positions that fit no common text; it fails when the span would end before it starts.
-/

namespace Lexis

/-- The stretch of a text from `start` up to and without `stop`. -/
structure Span where
  start : Position
  stop : Position
  deriving DecidableEq, Repr

/-- A span was asked for whose end lies before its start. -/
structure InvertedSpan where
  /-- The offset at which the span would have started. -/
  start : Nat
  /-- The offset at which it would have ended. -/
  stop : Nat
  deriving DecidableEq, Repr

/-- What is said about a span that ends before it starts. -/
def InvertedSpan.message (e : InvertedSpan) : String :=
  "range start " ++ toString e.start ++ " is past its end " ++ toString e.stop

namespace Span

/-- The span between two positions, which must not be in the wrong order. -/
def between (start stop : Position) : Except InvertedSpan Span :=
  if start.offset ≤ stop.offset then .ok ⟨start, stop⟩
  else .error ⟨start.offset, stop.offset⟩

/-- A text ends no earlier than it begins. -/
theorem between_after (p : Position) (cs : List Char) :
    between p (p.after cs) = .ok ⟨p, p.after cs⟩ := by
  simp [between]

/-- Both ends, as messages and listings show them, also when they are equal. -/
def render (s : Span) : String :=
  s.start.render ++ "-" ++ s.stop.render

end Span

/-- A place in a text: a point, or the span between two points. -/
inductive Location where
  | point (position : Position)
  | range (span : Span)
  deriving DecidableEq, Repr

namespace Location

/-- Where the location begins. -/
def start : Location → Position
  | .point p => p
  | .range s => s.start

/-- Where the location ends. -/
def stop : Location → Position
  | .point p => p
  | .range s => s.stop

/-- A point as one position, a span as two. -/
def render : Location → String
  | .point p => p.render
  | .range s => s.render

/-- The span that covers both locations, or the location itself when the two are equal. Of two
starts or ends with one offset the second location's is taken, except that a span's goes before
a point's. -/
def merge (a b : Location) : Except InvertedSpan Location :=
  if a = b then .ok a
  else match a, b with
    | .point p, .point q => .range <$> Span.between (p.earlier q) (p.later q)
    | .point p, .range s | .range s, .point p =>
      .range <$> Span.between (p.earlier s.start) (p.later s.stop)
    | .range s, .range t =>
      .range <$> Span.between (s.start.earlier t.start) (s.stop.later t.stop)

/-- Merges `locations` into `first`, from left to right. -/
def mergeAll (first : Location) (locations : List Location) : Except InvertedSpan Location :=
  locations.foldlM merge first

/-- What each merge gives when `locations` are merged into `sofar` from left to right; a merge
that fails leaves what was merged before it as it was. -/
def runningMerge (sofar : Location) : List Location → List (Except InvertedSpan Location)
  | [] => []
  | l :: rest =>
    match sofar.merge l with
    | .ok merged => .ok merged :: runningMerge merged rest
    | .error e => .error e :: runningMerge sofar rest

end Location

end Lexis
