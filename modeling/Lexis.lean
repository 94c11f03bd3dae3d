import Lexis.Session
import Lexis.Log
import Lexis.Program
import Lexis.Main
import Lexis.Proofs.Stream.Tiling
import Lexis.Proofs.Stream.Layout
import Lexis.Proofs.Stream.Concatenation
import Lexis.Proofs.Stream.Blanks
import Lexis.Proofs.Stream.Spans
import Lexis.Proofs.Stream.Prefix
import Lexis.Proofs.Stream.Classes
import Lexis.Proofs.Stream.LineEnds
import Lexis.Proofs.Scanner.Reachable
import Lexis.Proofs.Scanner.Bookmark
import Lexis.Proofs.Scanner.Progress
import Lexis.Proofs.Location.Merging
import Lexis.Proofs.Location.Pairs
import Lexis.Proofs.Diagnostic.Filter
import Lexis.Proofs.Diagnostic.Surfaces
import Lexis.Proofs.Listing.Lossless
import Lexis.Proofs.Listing.Structured
import Lexis.Proofs.Log.Transcript
import Lexis.Proofs.Program.Files
import Lexis.Proofs.CommandLine.Grammar
import Lexis.Proofs.Scanner.ReadingOrder
import Lexis.Proofs.Machine.Safety
