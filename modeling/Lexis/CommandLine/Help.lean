import Lexis.CommandLine.Request

/-!
# What the program says about itself

Its name, its version and the help texts.
-/

namespace Lexis.CommandLine

/-- The name of the program. -/
def programName : String := "rebo"

/-- The version of the program. -/
def version : String := "0.1.0"

/-- What `--version` prints. -/
def versionText : String := programName ++ " " ++ version ++ "\n"

/-- Lines of text, each ended by a line feed. -/
def unlines (lines : List String) : String := String.join (lines.map (· ++ "\n"))

/-- The help text of a topic. -/
def HelpTopic.text : HelpTopic → String
  | .program => unlines [
      "Rebo language tokenizer",
      "",
      "Usage: rebo <COMMAND>",
      "",
      "Commands:",
      "  tokens  Print the token stream of a source file",
      "  check   Check a source file for lexical errors",
      "  help    Print this message or the help of the given subcommand(s)",
      "",
      "Options:",
      "  -h, --help     Print help",
      "  -V, --version  Print version"]
  | .tokens => unlines [
      "Print the token stream of a source file",
      "",
      "Usage: rebo tokens [OPTIONS] <PATH>",
      "",
      "Arguments:",
      "  <PATH>  Input file, or `-` for standard input",
      "",
      "Options:",
      "      --json  Emit tokens as a JSON array",
      "  -h, --help  Print help"]
  | .check => unlines [
      "Check a source file for lexical errors",
      "",
      "Usage: rebo check <PATH>",
      "",
      "Arguments:",
      "  <PATH>  Input file, or `-` for standard input",
      "",
      "Options:",
      "  -h, --help  Print help"]
  | .help => unlines [
      "Print this message or the help of the given subcommand(s)",
      "",
      "Usage: rebo help [COMMAND]...",
      "",
      "Arguments:",
      "  [COMMAND]...  Print help for the subcommand(s)"]

end Lexis.CommandLine
