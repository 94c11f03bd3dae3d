import Lexis.Proofs.Diagnostic.Surfaces

/-!
# A run reads one source

A command names one source, and its run looks at nothing else. `run_tells_source` says so of two
runs: whatever differs between them, they leave the same if they were asked for the same and find
the same in their source. It goes on to say what they leave: the tokens of a source that is a text,
with errors in it or without, and one message about any other. `Origin.entry` is what stands where
a source comes from. Reading is told by it (`Origin.read_ofPath`), and so is a run, which makes it
enough to fetch the one source that the arguments name (`Program.run_fetched`).
-/

namespace Lexis

open CommandLine (Command Request)

/-- What stands where a source comes from. Standard input is there whatever stands at any path. -/
def Origin.entry (stdin : ByteArray) (entryAt : String → Entry) : Origin → Entry
  | .standardInput => .file stdin
  | .file path => entryAt path

section
variable {args : List String} {stdin stdin' : ByteArray} {entryAt entryAt' : String → Entry}
  {bytes : ByteArray} {source : String} {c : Command}

/-! ## Reading a source -/

/-- Reading a source is told by what stands where it comes from. -/
theorem Origin.read_ofPath (path : String) : (ofPath path).read stdin entryAt =
    match (ofPath path).entry stdin entryAt with
    | .missing => .error (.notFound path)
    | .directory => .error (.isDirectory path)
    | .file bytes => (ofPath path).decode bytes := by
  rw [ofPath]
  split
  · rfl
  · rfl

/-- Bytes that are the UTF-8 of no text cannot be decoded. -/
theorem Origin.decode_of_forall_ne (o : Origin) (h : ∀ source : String, source.toUTF8 ≠ bytes) :
    o.decode bytes = .error (.invalidText o) := by
  have hnone : String.fromUTF8? bytes = none := by
    rw [String.fromUTF8?]
    split
    · next hvalid => exact absurd rfl (h (String.fromUTF8 bytes hvalid))
    · rfl
  rw [decode, hnone]

/-- The message about bytes that are no text names standard input or the path. -/
theorem ReadError.message_invalidText (path : String) :
    (invalidText (.ofPath path)).message = "Error reading " ++
      (if path = "-" then "standard input" else path) ++
        ": stream did not contain valid UTF-8\n" := by
  rw [Origin.ofPath]
  split
  · rfl
  · rfl

/-! ## Runs -/

/-- A run of a command is told by what stands where its source comes from. -/
theorem CommandLine.Command.run_congr
    (h : (Origin.ofPath c.path).entry stdin entryAt =
      (Origin.ofPath c.path).entry stdin' entryAt') :
    c.run stdin entryAt = c.run stdin' entryAt' := by
  rw [run, run, Origin.read_ofPath, Origin.read_ofPath, h]

/-- A command is executed on the text that its source has. -/
theorem CommandLine.Command.run_of_text
    (h : (Origin.ofPath c.path).entry stdin entryAt = .file source.toUTF8) :
    c.run stdin entryAt = c.execute source := by
  have hread : (Origin.ofPath c.path).read stdin entryAt = .ok source := by
    rw [Origin.read_ofPath, h]
    exact Origin.decode_toUTF8 _ _
  rw [run, hread]

/-- A command whose source cannot be read says so. -/
theorem CommandLine.Command.run_of_error {e : ReadError}
    (h : (Origin.ofPath c.path).read stdin entryAt = .error e) :
    c.run stdin entryAt = .failure e.message := by
  rw [run, h]

/-- Arguments that ask for a command have it run. -/
theorem Program.run_of_ofArgs (h : Request.ofArgs args = .ok (.run c)) :
    Program.run args stdin entryAt = c.run stdin entryAt := by
  rw [Program.run, h]

/-- A run is told by its arguments and by what stands where they say that the source comes from. -/
theorem Program.run_congr (h : ∀ o, Program.origin? args = some o →
    o.entry stdin entryAt = o.entry stdin' entryAt') :
    Program.run args stdin entryAt = Program.run args stdin' entryAt' := by
  unfold Program.run Program.origin? at *
  split
  · next c hargs =>
    rw [hargs] at h
    exact Command.run_congr (h _ rfl)
  · rfl
  · rfl
  · rfl

/-- It is enough to fetch the source that the arguments name, and to run with that. -/
theorem Program.run_fetched (args : List String) (stdin : ByteArray) (entryAt : String → Entry) :
    Program.run args stdin entryAt =
      match Program.origin? args with
      | some .standardInput => Program.run args stdin fun _ => .missing
      | some (.file path) => Program.run args .empty fun _ => entryAt path
      | none => Program.run args .empty fun _ => .missing := by
  cases horigin : Program.origin? args with
  | none => exact Program.run_congr (by simp [horigin])
  | some origin =>
    cases origin with
    | standardInput => exact Program.run_congr (by simp [horigin, Origin.entry])
    | file path => exact Program.run_congr (by simp [horigin, Origin.entry])

/-! ## What is printed -/

/-- Checking prints no more than a report, which goes to standard error. -/
theorem CommandLine.Command.stdout_run_check (path : String) :
    ((Command.check path).run stdin entryAt).stdout = "" := by
  rw [run]
  split
  · rw [execute, Outcome.report]
    split
    · rfl
    · rfl
  · rfl

/-- Only a run that succeeds prints to standard output. -/
theorem CommandLine.Command.exitCode_run (h : (c.run stdin entryAt).stdout ≠ "") :
    (c.run stdin entryAt).exitCode = 0 := by
  cases c with
  | check path => exact absurd (stdout_run_check path) h
  | tokens path json =>
    rw [run] at h ⊢
    split at h
    · cases json <;> rfl
    · exact absurd rfl h

end

/-- A run of a command is told by the command and by what is found in standard input, if the path is
a single dash, or at the path otherwise. If that is the UTF-8 of a text, `tokens` prints the tokens
of the text, whether or not it has errors. If it is nothing, a directory or no UTF-8, each command
fails with the message about that, and prints nothing else. So standard output is written by a run
that succeeds or not at all, and never by `check`. -/
theorem run_tells_source {args : List String} {c : Command}
    (hargs : Request.ofArgs args = .ok (.run c)) (stdin : ByteArray) (entryAt : String → Entry) :
    let run := Program.run args stdin entryAt
    let found := (Origin.ofPath c.path).entry stdin entryAt
    (∀ args' stdin' entryAt', Request.ofArgs args' = .ok (.run c) →
        (if c.path = "-" then stdin' = stdin else entryAt' c.path = entryAt c.path) →
        Program.run args' stdin' entryAt' = run) ∧
      (∀ source : String, found = .file source.toUTF8 → ∀ path json, c = .tokens path json →
        run = ⟨0, if json then jsonListing (tokenize source) ++ "\n"
          else listing (tokenize source), ""⟩) ∧
      (found = .missing → run = ⟨1, "", "Error: file not found: " ++ c.path ++ "\n"⟩) ∧
      (found = .directory →
        run = ⟨1, "", "Error reading " ++ c.path ++ ": Is a directory (os error 21)\n"⟩) ∧
      (∀ bytes, found = .file bytes → (∀ source : String, source.toUTF8 ≠ bytes) →
        run = ⟨1, "", "Error reading " ++ (if c.path = "-" then "standard input" else c.path) ++
          ": stream did not contain valid UTF-8\n"⟩) ∧
      (run.stdout ≠ "" → run.exitCode = 0) ∧ ∀ path, c = .check path → run.stdout = "" := by
  intro run found
  have hrun : run = c.run stdin entryAt := Program.run_of_ofArgs hargs
  have hread : (Origin.ofPath c.path).read stdin entryAt =
      match found with
      | .missing => .error (.notFound c.path)
      | .directory => .error (.isDirectory c.path)
      | .file bytes => (Origin.ofPath c.path).decode bytes := Origin.read_ofPath c.path
  rw [hrun]
  refine ⟨?_, ?_, ?_, ?_, ?_, ?_, ?_⟩
  · intro args' stdin' entryAt' hargs' hsame
    rw [Program.run_of_ofArgs hargs']
    refine Command.run_congr ?_
    rw [Origin.ofPath]
    split at hsame
    · next hpath => rw [if_pos hpath, Origin.entry, Origin.entry, hsame]
    · next hpath => rw [if_neg hpath, Origin.entry, Origin.entry, hsame]
  · rintro source hfound path json rfl
    rw [Command.run_of_text hfound]
    cases json <;> rfl
  · intro hfound
    rw [hfound] at hread
    exact Command.run_of_error hread
  · intro hfound
    rw [hfound] at hread
    exact Command.run_of_error hread
  · intro bytes hfound hbytes
    rw [hfound] at hread
    rw [Command.run_of_error (hread.trans (Origin.decode_of_forall_ne _ hbytes)),
      ReadError.message_invalidText]
    rfl
  · exact Command.exitCode_run
  · rintro path rfl
    exact Command.stdout_run_check path

/-- A single dash stands for standard input also where there is a file of that name, and a byte
order mark is read as a character. -/
theorem run_dash_beside_file :
    let entryAt : String → Entry := fun _ => .file "a".toUTF8
    Request.ofArgs ["tokens", "--", "-"] = .ok (.run (.tokens "-" false)) ∧
      Program.run ["tokens", "--", "-"] "\uFEFF".toUTF8 entryAt =
        ⟨0, listing (tokenize "\uFEFF"), ""⟩ ∧
      (tokenize "\uFEFF").map (fun t => (t.kind, t.location.start)) =
        [(.error, ⟨1, 1, 0⟩), (.endOfStream, ⟨1, 2, 1⟩)] := by
  intro entryAt
  have hargs : Request.ofArgs ["tokens", "--", "-"] = .ok (.run (.tokens "-" false)) := rfl
  obtain ⟨-, htokens, -⟩ := run_tells_source hargs "\uFEFF".toUTF8 entryAt
  exact ⟨hargs, htokens "\uFEFF" rfl "-" false rfl, by decide +kernel⟩

end Lexis
