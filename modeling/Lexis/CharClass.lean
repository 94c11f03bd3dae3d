/-!
# Character classes

The eight classes of characters that the token grammar tells apart. Where a lexeme begins, which
characters it takes in and what kind of token it makes are decided by the classes of its
characters alone, the three keywords apart. Letters and digits are those of ASCII: every other
character, the unassigned and the invisible ones included, is of class `other`.
-/

namespace Lexis

/-- What a character is to the token grammar. -/
inductive CharClass where
  /-- The line feed, which ends a line. -/
  | newline
  /-- Space, tab and carriage return: white space that stays on its line. -/
  | blank
  | comma
  | minus
  /-- An ASCII digit. -/
  | digit
  /-- An ASCII lower-case letter. -/
  | lower
  /-- An ASCII upper-case letter. -/
  | upper
  /-- A character that no token but an error token may hold. -/
  | other
  deriving DecidableEq, Repr

namespace CharClass

/-- The class of a character. -/
def of (c : Char) : CharClass :=
  if c = '\n' then .newline
  else if c = ' ' ∨ c = '\t' ∨ c = '\r' then .blank
  else if c = ',' then .comma
  else if c = '-' then .minus
  else if c.isDigit then .digit
  else if c.isLower then .lower
  else if c.isUpper then .upper
  else .other

/-- The classes that separate tokens and belong to none. -/
def isSpace : CharClass → Bool
  | .newline | .blank => true
  | _ => false

/-- The classes of the characters inside a word. -/
def isWord : CharClass → Bool
  | .digit | .lower | .upper => true
  | _ => false

/-- `first.continues next` says that a lexeme whose first character is of class `first` takes in
a character of class `next`: a letter goes on with letters and digits, a digit and a minus sign
go on with digits, and every other lexeme is a single character. -/
def continues : CharClass → CharClass → Bool
  | .lower, next | .upper, next => next.isWord
  | .digit, next | .minus, next => next = .digit
  | _, _ => false

end CharClass

/-- White space: space, tab, carriage return and line feed, and nothing else. -/
def isSpace (c : Char) : Bool := (CharClass.of c).isSpace

/-- `isContinuedBy first next` says that a lexeme beginning with `first` takes in `next`. -/
def isContinuedBy (first next : Char) : Bool :=
  (CharClass.of first).continues (CharClass.of next)

/-- White space is told by the characters it consists of. -/
theorem isSpace_iff {c : Char} : isSpace c ↔ c = ' ' ∨ c = '\t' ∨ c = '\r' ∨ c = '\n' := by
  unfold isSpace CharClass.of
  repeat' split
  all_goals simp_all [CharClass.isSpace]

/-- No lexeme takes in white space. -/
theorem isContinuedBy_eq_false_of_isSpace {first next : Char} (h : isSpace next) :
    isContinuedBy first next = false := by
  unfold isSpace CharClass.isSpace at h
  unfold isContinuedBy CharClass.continues CharClass.isWord
  split at h <;> simp_all <;> split <;> simp_all

end Lexis
