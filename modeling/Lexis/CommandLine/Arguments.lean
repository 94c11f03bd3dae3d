import Lexis.CommandLine.Request

/-!
# Reading the arguments

Arguments are read from left to right, and the first problem decides. A word that begins with a
dash and goes on is an option, up to a word `--`; behind it no word is an option. A dash alone and
the empty word are plain everywhere. The first plain word names the subcommand, and exactly one
plain word is due behind it: the path. `Word.of` tells what a word is, given the names of the
flags that may stand there; a flag with a long name takes no value, and every flag with a short
name ends the reading, so the letters behind the first one of a word are never looked at.
-/

namespace Lexis.CommandLine

/-! ## Words -/

/-- What a word is where flags of type `α` may stand. -/
inductive Word (α : Type) where
  /-- The word `--`, behind which no word is an option. -/
  | separator
  | flag (flag : α)
  /-- A flag with a value behind an equals sign. -/
  | valuedFlag (flag : α)
  /-- A word of the form of an option that names no flag. -/
  | unknownOption
  | plain
  deriving DecidableEq, Repr

/-- The names of the flags that may stand somewhere. -/
structure FlagNames (α : Type) where
  /-- The flag of a name behind two dashes. -/
  long : String → Option α
  /-- The flag of a letter behind one dash. -/
  short : Char → Option α

/-- Tells what a word is. A long name ends at the first equals sign. -/
def Word.of {α : Type} (names : FlagNames α) (word : String) : Word α :=
  match word.toList with
  | ['-', '-'] => .separator
  | '-' :: '-' :: text =>
    match names.long (String.ofList (text.takeWhile (· ≠ '='))) with
    | none => .unknownOption
    | some named => if '=' ∈ text then .valuedFlag named else .flag named
  | '-' :: letter :: _ =>
    match names.short letter with
    | none => .unknownOption
    | some named => .flag named
  | _ => .plain

/-! ## Subcommands -/

/-- The subcommands that work on a source. -/
inductive Verb where
  | tokens
  | check
  deriving DecidableEq, Repr

/-- The flags of the subcommands that work on a source. -/
inductive VerbFlag where
  | help
  | json
  deriving DecidableEq, Repr

namespace Verb

/-- The topic that explains the subcommand. -/
def topic : Verb → HelpTopic
  | .tokens => .tokens
  | .check => .check

/-- Whether the subcommand has the flag `--json`. -/
def hasJson : Verb → Bool
  | .tokens => true
  | .check => false

/-- The names of the flags of the subcommand. -/
def flagNames (verb : Verb) : FlagNames VerbFlag where
  long name :=
    if name = "help" then some .help
    else if verb.hasJson && name = "json" then some .json
    else none
  short letter := if letter = 'h' then some .help else none

/-- The command that the subcommand makes with a path and the flag `--json`. -/
def command (path : String) (json : Bool) : Verb → Command
  | .tokens => .tokens path json
  | .check => .check path

end Verb

/-- What the first plain word can name. -/
inductive Subcommand where
  | run (verb : Verb)
  | help
  deriving DecidableEq, Repr

namespace Subcommand

/-- The subcommand that a word names. -/
def ofWord? (word : String) : Option Subcommand :=
  if word = "tokens" then some (.run .tokens)
  else if word = "check" then some (.run .check)
  else if word = "help" then some .help
  else none

/-- The topic that explains the subcommand. -/
def topic : Subcommand → HelpTopic
  | .run verb => verb.topic
  | .help => .help

end Subcommand

/-! ## The words of a subcommand -/

/-- What the words of a subcommand have given up to some point. -/
structure Given where
  path : Option String
  json : Bool
  deriving DecidableEq, Repr

namespace Given

/-- Before the first word. -/
def nothing : Given := ⟨none, false⟩

/-- Takes a plain word, which is the path if there is none yet. -/
def takePlain (g : Given) (word : String) : Except UsageError Given :=
  match g.path with
  | none => .ok { g with path := some word }
  | some _ => .error (.unknownArgument word)

/-- Takes the flag `--json`, which may be given once. -/
def takeJson (g : Given) : Except UsageError Given :=
  if g.json then .error .repeatedJson else .ok { g with json := true }

/-- The request, when there are no more words. -/
def finish (verb : Verb) (g : Given) : Except UsageError Request :=
  match g.path with
  | none => .error .missingPath
  | some path => .ok (.run (verb.command path g.json))

end Given

/-- Reads the words of a subcommand, with what those before them have given. -/
def readWords (verb : Verb) (g : Given) : List String → Except UsageError Request
  | [] => g.finish verb
  | word :: words =>
    match Word.of verb.flagNames word with
    | .separator => do (← words.foldlM Given.takePlain g).finish verb
    | .flag .help => .ok (.help verb.topic)
    | .flag .json => do readWords verb (← g.takeJson) words
    | .valuedFlag _ => .error (.valuedFlag word)
    | .unknownOption => .error (.unknownArgument word)
    | .plain => do readWords verb (← g.takePlain word) words

/-- Reads the words behind `help`: at most one, which names a subcommand. No subcommand has
subcommands of its own, so a second word is never known. -/
def readTopic : List String → Except UsageError Request
  | [] => .ok (.help .program)
  | word :: extra =>
    match Subcommand.ofWord? word, extra with
    | none, _ => .error (.unknownCommand word)
    | some subcommand, [] => .ok (.help subcommand.topic)
    | some _, second :: _ => .error (.unknownCommand second)

/-! ## All arguments -/

/-- The flags of the program. -/
inductive ProgramFlag where
  | help
  | version
  deriving DecidableEq, Repr

/-- The names of the flags of the program. -/
def ProgramFlag.names : FlagNames ProgramFlag where
  long name :=
    if name = "help" then some .help
    else if name = "version" then some .version
    else none
  short letter :=
    if letter = 'h' then some .help
    else if letter = 'V' then some .version
    else none

/-- What is wrong with the words behind a first word `--`. No subcommand may stand there: one that
does is out of place, and any other word is none. -/
def misplaced : List String → UsageError
  | [] => .missingCommand
  | word :: _ =>
    if (Subcommand.ofWord? word).isSome then .unknownArgument word else .unknownCommand word

/-- Reads the arguments of the program. -/
def Request.ofArgs : List String → Except UsageError Request
  | [] => .error .missingCommand
  | word :: words =>
    match Word.of ProgramFlag.names word with
    | .separator => .error (misplaced words)
    | .flag .help => .ok (.help .program)
    | .flag .version => .ok .version
    | .valuedFlag _ => .error (.valuedFlag word)
    | .unknownOption => .error (.unknownArgument word)
    | .plain =>
      match Subcommand.ofWord? word with
      | none => .error (.unknownCommand word)
      | some .help => readTopic words
      | some (.run verb) => readWords verb .nothing words

end Lexis.CommandLine
