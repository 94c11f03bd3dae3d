import Lexis.CommandLine.Arguments
import Lexis.CommandLine.Help
import Lexis.Diagnostic
import Lexis.FileSystem
import Lexis.Listing
import Lexis.Token.Json

/-!
# The program

What the program prints and how it ends, as a function of its arguments, its standard input and
what stands at a path. A source is read from standard input if its path is a single dash and from
the file at its path otherwise; it must be UTF-8. Tokens go to standard output and everything that
is said about a source to standard error. The exit code is 0 for success, 1 for a source that
cannot be read or has errors and was to be checked, and 2 for arguments that make no request, which
are answered with the help of the program on standard error.
-/

namespace Lexis

open CommandLine (Command Request)

/-- What a run of the program leaves. -/
structure Outcome where
  exitCode : UInt32
  stdout : String
  stderr : String
  deriving DecidableEq, Repr

/-- Where a source comes from. -/
inductive Origin where
  | standardInput
  | file (path : String)
  deriving DecidableEq, Repr

/-- A single dash stands for standard input. -/
def Origin.ofPath (path : String) : Origin :=
  if path = "-" then .standardInput else .file path

/-- Why a source cannot be read. -/
inductive ReadError where
  /-- Nothing stands at the path. -/
  | notFound (path : String)
  /-- A directory stands at the path. -/
  | isDirectory (path : String)
  /-- The bytes of the source are not UTF-8. -/
  | invalidText (origin : Origin)
  /-- The operating system does not let the source be read, and says why. -/
  | refused (origin : Origin) (reason : String)
  deriving DecidableEq, Repr

/-- What a source is called where reading it fails. -/
def Origin.name : Origin → String
  | .standardInput => "standard input"
  | .file path => path

/-- The line that is printed about a source that cannot be read. -/
def ReadError.message : ReadError → String
  | .notFound path => "Error: file not found: " ++ path ++ "\n"
  | .isDirectory path => "Error reading " ++ path ++ ": Is a directory (os error 21)\n"
  | .invalidText origin =>
    "Error reading " ++ origin.name ++ ": stream did not contain valid UTF-8\n"
  | .refused origin reason => "Error reading " ++ origin.name ++ ": " ++ reason ++ "\n"

/-- The text that bytes spell. -/
def Origin.decode (origin : Origin) (bytes : ByteArray) : Except ReadError String :=
  match String.fromUTF8? bytes with
  | some text => .ok text
  | none => .error (.invalidText origin)

/-- The text of a source, given standard input and what stands at each path. -/
def Origin.read (stdin : ByteArray) (entryAt : String → Entry) :
    Origin → Except ReadError String
  | .standardInput => Origin.standardInput.decode stdin
  | .file path =>
    match entryAt path with
    | .missing => .error (.notFound path)
    | .directory => .error (.isDirectory path)
    | .file bytes => (Origin.file path).decode bytes

namespace Outcome

/-- Success, with something to print. -/
def success (stdout : String) : Outcome := ⟨0, stdout, ""⟩

/-- The source cannot be read or has errors. -/
def failure (stderr : String) : Outcome := ⟨1, "", stderr⟩

/-- The arguments make no request. The help of the program says which ones do. -/
def misuse : Outcome := ⟨2, "", CommandLine.HelpTopic.program.text⟩

/-- The report on a source that was checked: one line for each error, or one line that says that
there is none. -/
def report (path : String) (errors : List LexicalError) : Outcome :=
  if errors = [] then ⟨0, "", "OK: " ++ path ++ "\n"⟩
  else failure (String.join (errors.map fun e => path ++ ": " ++ e.message ++ "\n"))

end Outcome

/-- What a command does with the text of its source. -/
def CommandLine.Command.execute (source : String) : Command → Outcome
  | .tokens _ true => .success (jsonListing (tokenize source) ++ "\n")
  | .tokens _ false => .success (listing (tokenize source))
  | .check path => .report path (LexicalError.collect (tokenize source))

/-- What a command does, given standard input and what stands at each path. -/
def CommandLine.Command.run (stdin : ByteArray) (entryAt : String → Entry) (c : Command) :
    Outcome :=
  match (Origin.ofPath c.path).read stdin entryAt with
  | .ok source => c.execute source
  | .error e => .failure e.message

namespace Program

/-- Where the source comes from that a run with these arguments reads, if it reads any. -/
def origin? (args : List String) : Option Origin :=
  match Request.ofArgs args with
  | .ok (.run c) => some (.ofPath c.path)
  | _ => none

/-- What a run of the program with these arguments leaves, given standard input and what stands at
each path. -/
def run (args : List String) (stdin : ByteArray) (entryAt : String → Entry) : Outcome :=
  match Request.ofArgs args with
  | .ok (.run c) => c.run stdin entryAt
  | .ok (.help topic) => .success topic.text
  | .ok .version => .success CommandLine.versionText
  | .error _ => .misuse

end Program

end Lexis
