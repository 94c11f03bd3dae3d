/-!
# Requests

What can be asked of the program on its command line: to list the tokens of a source, to check a
source, to explain itself or to tell its version. Arguments that ask for nothing of this are a
`UsageError`, which says why.
-/

namespace Lexis.CommandLine

/-- What is to be done with a source. -/
inductive Command where
  /-- Print the tokens of the source at `path`, as a listing or as JSON. -/
  | tokens (path : String) (json : Bool)
  /-- Check the source at `path` for lexical errors. -/
  | check (path : String)
  deriving DecidableEq, Repr

/-- The path of the source. -/
def Command.path : Command → String
  | .tokens path _ => path
  | .check path => path

/-- What the program can explain: itself and its subcommands. -/
inductive HelpTopic where
  | program
  | tokens
  | check
  | help
  deriving DecidableEq, Repr

/-- What is asked of the program. -/
inductive Request where
  | run (command : Command)
  | help (topic : HelpTopic)
  | version
  deriving DecidableEq, Repr

/-- Why arguments are no request. -/
inductive UsageError where
  /-- There is no subcommand. -/
  | missingCommand
  /-- A word that is no subcommand stands where one is due. -/
  | unknownCommand (word : String)
  /-- An option that the subcommand does not have, or a word too many. -/
  | unknownArgument (word : String)
  /-- The flag `--json` is given twice. -/
  | repeatedJson
  /-- A flag is given a value. -/
  | valuedFlag (word : String)
  /-- A subcommand is given no path. -/
  | missingPath
  deriving DecidableEq, Repr

end Lexis.CommandLine
