import Lexis.Proofs.Program.Sources

/-!
# Files that are made are found

A file system is changed at some places and asked at others. `FileSystem.entry_addFile` says what
stands at each place when a file has been made, and `FileSystem.lookup_addFile_self` and
`FileSystem.lookup_addFile_of_apart` what is found at a path then: the bytes of the file at its own
path, if the file system admits it (`FileSystem.Admits`), and what was found before at a path that
does not lead over anything that was made (`FileSystem.Apart`). A run in a file system follows from
these: `Program.run_addFile` for a file that is the source, and `Program.run_addFile_elsewhere` for
any other file.
-/

namespace Lexis

namespace Place

/-- The place that names lead to. -/
def follow (p : Place) (names : List String) : Place := names.foldl step p

/-- The places that names lead over, the last one included. -/
def way (p : Place) : List String → List Place
  | [] => []
  | name :: names => p.step name :: (p.step name).way names

/-- The place that a path leads to. -/
def ofPath (path : String) : Place := (beginning path).follow (FileSystem.names path)

/-- The places that a path leads over on its way to the last one, which must be directories. -/
def directories (path : String) : List Place :=
  (beginning path).way (FileSystem.names path).dropLast

/-- A path begins at a place that is reached by no names. -/
theorem names_beginning (path : String) : (beginning path).names = [] := by
  rw [beginning]
  split
  · rfl
  · rfl

/-- The last name of a path leads from the last directory to the place of the path. -/
theorem step_getLastD (path : String) :
    ((beginning path).follow (FileSystem.names path).dropLast).step
      ((FileSystem.names path).getLastD "") = ofPath path := by
  rw [ofPath]
  rcases List.eq_nil_or_concat (FileSystem.names path) with hnames | ⟨front, name, hnames⟩
  · rw [hnames]
    rfl
  · rw [hnames, List.concat_eq_append, List.dropLast_concat, List.getLastD_concat, follow, follow,
      List.foldl_append]
    rfl

/-! ### Paths without dots -/

/-- The name leads from a directory to something that is in it. -/
def IsProper (name : String) : Prop := name ≠ "" ∧ name ≠ "." ∧ name ≠ ".."

/-- A proper name is one name more. -/
theorem step_of_isProper (p : Place) {name : String} (h : IsProper name) :
    p.step name = ⟨p.base, name :: p.names⟩ := by
  obtain ⟨hempty, hdot, hdots⟩ := h
  rw [step, if_neg (not_or.2 ⟨hempty, hdot⟩), if_neg hdots]

/-- Proper names lead as many levels down as there are of them. -/
theorem length_names_follow {p : Place} {names : List String} (h : ∀ name ∈ names, IsProper name) :
    (p.follow names).names.length = p.names.length + names.length := by
  induction names generalizing p with
  | nil => rfl
  | cons name names ih =>
    rw [List.forall_mem_cons] at h
    show ((p.step name).follow names).names.length = _
    rw [ih h.2, step_of_isProper p h.1, List.length_cons, List.length_cons, Nat.add_right_comm,
      Nat.add_assoc]

/-- Proper names lead over no place that is further down than the last one. -/
theorem length_names_le_of_mem_way {p q : Place} {names : List String}
    (h : ∀ name ∈ names, IsProper name) (hq : q ∈ p.way names) :
    q.names.length ≤ p.names.length + names.length := by
  induction names generalizing p with
  | nil => cases hq
  | cons name names ih =>
    rw [List.forall_mem_cons] at h
    have hstep : (p.step name).names.length = p.names.length + 1 := by
      rw [step_of_isProper p h.1, List.length_cons]
    rw [List.length_cons]
    rcases List.mem_cons.1 hq with rfl | hq
    · omega
    · have hle := ih h.2 hq
      omega

end Place

namespace FileSystem

variable {fs fs' : FileSystem} {p q : Place} {path other : String} {bytes : ByteArray}

/-! ## What stands at a place -/

/-- A place that is reached by no names is a directory, whatever has been put there. -/
theorem entry_of_names_eq_nil (fs : FileSystem) (h : p.names = []) : fs.entry p = .directory :=
  if_pos h

/-- Putting something at a place that is reached by names changes that place alone. -/
theorem entry_put (fs : FileSystem) (p q : Place) (e : Entry) :
    (fs.put p e).entry q = if q = p ∧ q.names ≠ [] then e else fs.entry q := by
  split
  · next h => rw [h.1, entry_put_self (h.1 ▸ h.2)]
  · next h =>
    by_cases hq : q.names = []
    · rw [entry_of_names_eq_nil _ hq, entry_of_names_eq_nil _ hq]
    · exact entry_put_of_ne fun hqp => h ⟨hqp, hq⟩

/-- Making a directory at a place fills it if nothing stands there. -/
theorem entry_makeDirectory (fs : FileSystem) (p q : Place) : (fs.makeDirectory p).entry q =
    if q = p ∧ fs.entry q = .missing then .directory else fs.entry q := by
  by_cases hqp : q = p
  · subst hqp
    rw [makeDirectory]
    split
    · next hmissing =>
      have hnames : q.names ≠ [] := by
        intro hnil
        rw [entry_of_names_eq_nil fs hnil] at hmissing
        cases hmissing
      rw [entry_put_self hnames, if_pos ⟨rfl, hmissing⟩]
    · next hfound => rw [if_neg fun h => hfound h.2]
  · rw [entry_makeDirectory_of_ne hqp, if_neg fun h => hqp h.1]

/-- Making a path fills those of its places where nothing stands. -/
theorem entry_makePath (names : List String) : (fs.makePath p names).1.entry q =
    if q ∈ p.way names ∧ fs.entry q = .missing then .directory else fs.entry q := by
  induction names generalizing fs p with
  | nil => exact (if_neg fun h => absurd h.1 List.not_mem_nil).symm
  | cons name names ih =>
    rw [makePath, ih, entry_makeDirectory]
    simp only [Place.way, List.mem_cons]
    -- The way may come to a place again, where a directory stands then.
    by_cases hmissing : fs.entry q = .missing
    · by_cases hq : q = p.step name
      · subst hq
        simp [hmissing]
      · simp [hq, hmissing]
    · simp [hmissing]

/-- A path that is made leads where it leads to. -/
theorem makePath_snd (names : List String) : (fs.makePath p names).2 = p.follow names := by
  induction names generalizing fs p with
  | nil => rfl
  | cons name names ih => exact ih

/-- When a file has been made, it stands at the place of its path, and directories stand at the
places on the way where nothing stood. -/
theorem entry_addFile (fs : FileSystem) (path : String) (bytes : ByteArray) (q : Place) :
    (fs.addFile path bytes).entry q =
      if q = .ofPath path ∧ q.names ≠ [] then .file bytes
      else if q ∈ Place.directories path ∧ fs.entry q = .missing then .directory
      else fs.entry q := by
  have hplace : (fs.makePath (.beginning path) (names path).dropLast).2.step
      ((names path).getLastD "") = .ofPath path := by
    rw [makePath_snd]
    exact Place.step_getLastD path
  rw [addFile, entry_put, hplace, entry_makePath]
  rfl

/-! ## What is found at a path -/

/-- Names that lead over directories lead to what stands at the last place. -/
theorem follow_of_directories (hp : fs.entry p = .directory) {names : List String}
    (h : ∀ q ∈ p.way names.dropLast, fs.entry q = .directory) :
    fs.follow p names = fs.entry (p.follow names) := by
  induction names generalizing p with
  | nil => rfl
  | cons name names ih =>
    rw [follow, hp]
    cases names with
    | nil => rfl
    | cons second names =>
      rw [List.dropLast_cons_cons, Place.way, List.forall_mem_cons] at h
      exact ih h.1 h.2

/-- What names lead to is told by what stands at the places that they lead over. -/
theorem follow_congr {names : List String} (hp : fs.entry p = fs'.entry p)
    (h : ∀ q ∈ p.way names, fs.entry q = fs'.entry q) : fs.follow p names = fs'.follow p names := by
  induction names generalizing p with
  | nil => exact hp
  | cons name names ih =>
    rw [Place.way, List.forall_mem_cons] at h
    rw [follow, follow, hp, ih h.1 h.2]

/-- A file can be made and found at the path: the path can be followed, it leads to a place that is
reached by names, not over this place itself, and no file is in the way. -/
structure Admits (fs : FileSystem) (path : String) : Prop where
  ne_empty : path ≠ ""
  length_le : path.utf8ByteSize ≤ maxPathBytes
  names_ne_nil : (Place.ofPath path).names ≠ []
  not_mem : Place.ofPath path ∉ Place.directories path
  not_file : ∀ q ∈ Place.directories path, ∀ bytes, fs.entry q ≠ .file bytes

/-- Nothing that is made for a file at `path` is in the way of `other`: neither the file itself, nor
a directory that has to be made for it. -/
def Apart (fs : FileSystem) (path other : String) : Prop :=
  ∀ q ∈ (Place.beginning other).way (names other),
    q ≠ .ofPath path ∧ (q ∈ Place.directories path → fs.entry q ≠ .missing)

/-- A path of proper names is admitted unless it is too long or a file is in the way: it leads down
all the way, so its place is not one of those on the way. -/
theorem admits_of_isProper (hlength : path.utf8ByteSize ≤ maxPathBytes)
    (hnames : ∀ name ∈ names path, Place.IsProper name)
    (hfile : ∀ q ∈ Place.directories path, ∀ bytes, fs.entry q ≠ .file bytes) :
    fs.Admits path := by
  have hpos : 0 < (names path).length := by
    rw [names, List.length_map]
    exact List.length_pos_iff.2 (List.splitOn_ne_nil _ _)
  have hplace : (Place.ofPath path).names.length = (names path).length := by
    rw [Place.ofPath, Place.length_names_follow hnames, Place.names_beginning]
    exact Nat.zero_add _
  refine ⟨?_, hlength, ?_, ?_, hfile⟩
  · rintro rfl
    exact (hnames "" (by decide)).1 rfl
  · exact List.length_pos_iff.1 (hplace ▸ hpos)
  · intro hmem
    have hle := Place.length_names_le_of_mem_way
      (fun name hname => hnames name (List.dropLast_subset _ hname)) hmem
    rw [hplace, Place.names_beginning, List.length_dropLast, List.length_nil] at hle
    omega

/-- A file that has been made is found at its path. -/
theorem lookup_addFile_self (h : fs.Admits path) (bytes : ByteArray) :
    (fs.addFile path bytes).lookup path = .file bytes := by
  have hpath : ¬ (path = "" ∨ maxPathBytes < path.utf8ByteSize) :=
    not_or.2 ⟨h.ne_empty, Nat.not_lt.2 h.length_le⟩
  have hway : ∀ q ∈ Place.directories path, (fs.addFile path bytes).entry q = .directory := by
    intro q hq
    have hne : q ≠ .ofPath path := by
      rintro rfl
      exact h.not_mem hq
    rw [entry_addFile, if_neg fun hplace => hne hplace.1]
    cases hentry : fs.entry q with
    | missing => rw [if_pos ⟨hq, rfl⟩]
    | directory => rw [if_neg fun hmissing => nomatch hmissing.2]
    | file bytes => exact absurd hentry (h.not_file q hq bytes)
  rw [lookup, if_neg hpath,
    follow_of_directories (entry_of_names_eq_nil _ (Place.names_beginning path)) hway]
  show (fs.addFile path bytes).entry (.ofPath path) = .file bytes
  rw [entry_addFile, if_pos ⟨rfl, h.names_ne_nil⟩]

/-- The directory that two dots lead out of again must be there, so it is made. -/
example : (empty.addFile "a/../b" "x".toUTF8).lookup "a/../b" = .file "x".toUTF8 := by
  decide +kernel

/-- A path that leads over nothing that is made for a file leads where it led before. -/
theorem lookup_addFile_of_apart (h : fs.Apart path other) (bytes : ByteArray) :
    (fs.addFile path bytes).lookup other = fs.lookup other := by
  have hbeginning : (fs.addFile path bytes).entry (.beginning other) =
      fs.entry (.beginning other) := by
    rw [entry_of_names_eq_nil _ (Place.names_beginning other),
      entry_of_names_eq_nil _ (Place.names_beginning other)]
  have hway : ∀ q ∈ (Place.beginning other).way (names other),
      (fs.addFile path bytes).entry q = fs.entry q := by
    intro q hq
    obtain ⟨hne, hfound⟩ := h q hq
    rw [entry_addFile, if_neg fun hplace => hne hplace.1,
      if_neg fun hmissing => hfound hmissing.1 hmissing.2]
  rw [lookup, lookup, follow_congr hbeginning hway]

end FileSystem

/-! ## Runs in a file system -/

open CommandLine (Command Request)

section
variable {args : List String} {stdin : ByteArray} {fs : FileSystem} {c : Command}

/-- A command whose source is a file that has been made is executed on its text. -/
theorem Program.run_addFile (hargs : Request.ofArgs args = .ok (.run c)) (hpath : c.path ≠ "-")
    (h : fs.Admits c.path) (source : String) :
    Program.run args stdin (fs.addFile c.path source.toUTF8).lookup = c.execute source := by
  rw [Program.run_of_ofArgs hargs]
  refine Command.run_of_text ?_
  rw [Origin.ofPath, if_neg hpath]
  exact FileSystem.lookup_addFile_self h source.toUTF8

/-- A file that is made where the path of a command does not lead changes nothing for its run. -/
theorem Program.run_addFile_elsewhere {path : String} (bytes : ByteArray)
    (hargs : Request.ofArgs args = .ok (.run c)) (h : fs.Apart path c.path) :
    Program.run args stdin (fs.addFile path bytes).lookup = Program.run args stdin fs.lookup := by
  rw [Program.run_of_ofArgs hargs, Program.run_of_ofArgs hargs]
  refine Command.run_congr ?_
  rw [Origin.ofPath]
  split
  · rfl
  · exact FileSystem.lookup_addFile_of_apart h bytes

end

end Lexis
