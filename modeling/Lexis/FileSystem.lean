/-!
# Places, paths and what stands there

A file system as a program sees it from its working directory. A `Place` is reached by names from
the working directory, from a directory some levels above it or from the top of the file system,
so `..` needs no knowledge of the names above the working directory. A `FileSystem` records what
has been put at some places; the places that others are reached from are always directories.

A path is followed name by name, and each name needs a directory to be looked up in: so do the
names `.` and `..` and the empty name behind a last slash. The empty path and a path of more than
`maxPathBytes` lead nowhere. When a file or directory is made at a path, directories are made at
all places on the way where nothing stands, also at one that `..` leaves again.
-/

namespace Lexis

/-- Files are compared by this instance, whichever others there are. -/
local instance decidableEqBytes : DecidableEq ByteArray := ByteArray.instDecidableEq

/-- What stands at a path. -/
inductive Entry where
  | missing
  | directory
  | file (bytes : ByteArray)
  deriving DecidableEq

/-- The directory that a path is followed from. -/
inductive Base where
  /-- The directory so many levels above the working directory, itself at level zero. -/
  | above (levels : Nat)
  /-- The top of the file system. -/
  | root
  deriving DecidableEq, Repr

/-- A place: names that lead there from a base, the last one first. -/
structure Place where
  base : Base
  names : List String
  deriving DecidableEq, Repr

namespace Place

/-- The directory that a place lies in; the top of the file system lies in itself. -/
def parent : Place → Place
  | ⟨base, _ :: names⟩ => ⟨base, names⟩
  | ⟨.above levels, []⟩ => ⟨.above (levels + 1), []⟩
  | ⟨.root, []⟩ => ⟨.root, []⟩

/-- The place that a name leads to. -/
def step (p : Place) (name : String) : Place :=
  if name = "" ∨ name = "." then p
  else if name = ".." then p.parent
  else ⟨p.base, name :: p.names⟩

/-- Where a path begins: at the top of the file system if it begins with a slash, and in the
working directory otherwise. -/
def beginning (path : String) : Place :=
  if path.toList.head? = some '/' then ⟨.root, []⟩ else ⟨.above 0, []⟩

end Place

/-- What is known to stand at some places, the latest first. -/
structure FileSystem where
  known : List (Place × Entry)

namespace FileSystem

/-- The length of the longest path that can be followed, in bytes of UTF-8. -/
def maxPathBytes : Nat := 4095

/-- The names of a path, which slashes divide. -/
def names (path : String) : List String := (path.toList.splitOn '/').map String.ofList

/-- The file system in which nothing has been made. -/
def empty : FileSystem := ⟨[]⟩

/-- What stands at a place. -/
def entry (fs : FileSystem) (p : Place) : Entry :=
  if p.names = [] then .directory else (fs.known.lookup p).getD .missing

/-- Puts something at a place, instead of what stands there. -/
def put (fs : FileSystem) (p : Place) (e : Entry) : FileSystem := ⟨(p, e) :: fs.known⟩

/-- Makes a directory at a place where nothing stands. -/
def makeDirectory (fs : FileSystem) (p : Place) : FileSystem :=
  match fs.entry p with
  | .missing => fs.put p .directory
  | _ => fs

/-- Makes directories at all places on a path of names, and tells where it ends. -/
def makePath (fs : FileSystem) (p : Place) : List String → FileSystem × Place
  | [] => (fs, p)
  | name :: names => (fs.makeDirectory (p.step name)).makePath (p.step name) names

/-- Makes a directory at a path, and those on the way. -/
def addDirectory (fs : FileSystem) (path : String) : FileSystem :=
  (fs.makePath (.beginning path) (names path)).1

/-- Makes a file at a path, and the directories on the way. -/
def addFile (fs : FileSystem) (path : String) (bytes : ByteArray) : FileSystem :=
  let (fs, directory) := fs.makePath (.beginning path) (names path).dropLast
  fs.put (directory.step ((names path).getLastD "")) (.file bytes)

/-- The file system with the files and directories of a list, made in its order; a directory has
no bytes. -/
def ofList (files : List (String × Option ByteArray)) : FileSystem :=
  files.foldl
    (fun fs (path, bytes?) =>
      match bytes? with
      | some bytes => fs.addFile path bytes
      | none => fs.addDirectory path)
    empty

/-- What stands where names lead from a place. -/
def follow (fs : FileSystem) (p : Place) : List String → Entry
  | [] => fs.entry p
  | name :: names =>
    match fs.entry p with
    | .directory => fs.follow (p.step name) names
    | _ => .missing

/-- What stands at a path. -/
def lookup (fs : FileSystem) (path : String) : Entry :=
  if path = "" ∨ maxPathBytes < path.utf8ByteSize then .missing
  else fs.follow (.beginning path) (names path)

/-! ## What is put stands there -/

/-- A place that is reached by names holds what has been put there. -/
theorem entry_put_self {fs : FileSystem} {p : Place} {e : Entry} (h : p.names ≠ []) :
    (fs.put p e).entry p = e := by
  simp [entry, put, h]

/-- Putting something somewhere leaves all other places as they are. -/
theorem entry_put_of_ne {fs : FileSystem} {p q : Place} {e : Entry} (h : q ≠ p) :
    (fs.put p e).entry q = fs.entry q := by
  have hbeq : (q == p) = false := beq_eq_false_iff_ne.2 h
  simp [entry, put, List.lookup_cons, hbeq]

/-- Making a directory leaves all other places as they are. -/
theorem entry_makeDirectory_of_ne {fs : FileSystem} {p q : Place} (h : q ≠ p) :
    (fs.makeDirectory p).entry q = fs.entry q := by
  unfold makeDirectory
  split
  · exact entry_put_of_ne h
  · rfl

end FileSystem

end Lexis
