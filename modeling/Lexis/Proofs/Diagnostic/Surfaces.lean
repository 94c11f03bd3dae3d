import Mathlib.Tactic.TFAE
import Lexis.Program
import Lexis.Proofs.Diagnostic.Filter
import Lexis.Proofs.Text.Digits
import Lexis.Proofs.Text.Lines

/-!
# All ways of checking a text agree

A text is checked by collecting the errors of its tokens, by strict reading, by `check` and by the
program. `checking_agrees` says that they give the same answer on every text: the same texts pass,
the first error of the others is the same everywhere, and the program reports all errors in their
order, each on a line of its own. The last part needs that no message goes over more than one line:
a message shows the character it is about as it is, and a line feed is white space, so it is never
reported (`LexicalError.lineFeed_not_mem_message_of_mem`).
-/

namespace Lexis

open CommandLine (Request)

/-! ## Where the text comes from -/

/-- What the program finds at the path is the text in UTF-8. -/
inductive Supplies (stdin : ByteArray) (entryAt : String → Entry) (source : String) :
    String → Prop
  | standardInput : stdin = source.toUTF8 → Supplies stdin entryAt source "-"
  | file {path : String} : path ≠ "-" → entryAt path = .file source.toUTF8 →
      Supplies stdin entryAt source path

/-- The UTF-8 of a text spells the text, wherever it comes from. -/
theorem Origin.decode_toUTF8 (origin : Origin) (source : String) :
    origin.decode source.toUTF8 = .ok source := by
  have hdecode : String.fromUTF8? source.toUTF8 = some source := dif_pos source.isValidUTF8
  rw [decode, hdecode]

section
variable {args : List String} {stdin : ByteArray} {entryAt : String → Entry}
  {source path : String}

/-- A source that is supplied is read, from standard input or from a file. -/
theorem Supplies.read_eq (h : Supplies stdin entryAt source path) :
    (Origin.ofPath path).read stdin entryAt = .ok source := by
  cases h with
  | standardInput hbytes =>
    rw [Origin.ofPath, if_pos rfl, Origin.read, hbytes]
    exact Origin.decode_toUTF8 _ _
  | file hpath hentry =>
    rw [Origin.ofPath, if_neg hpath, Origin.read, hentry]
    exact Origin.decode_toUTF8 _ _

/-- Every path can be named behind `--`. -/
theorem CommandLine.ofArgs_check (path : String) :
    Request.ofArgs ["check", "--", path] = .ok (.run (.check path)) := by
  have hcheck : Word.of ProgramFlag.names "check" = .plain := by decide
  have hverb : Subcommand.ofWord? "check" = some (.run .check) := by decide
  have hseparator : Word.of Verb.check.flagNames "--" = .separator := by decide
  rw [Request.ofArgs, hcheck]
  dsimp only
  rw [hverb]
  dsimp only
  rw [readWords, hseparator]
  rfl

/-- The program reports the errors of the text. -/
theorem Program.run_check (hargs : Request.ofArgs args = .ok (.run (.check path)))
    (h : Supplies stdin entryAt source path) : Program.run args stdin entryAt =
      .report path (LexicalError.collect (tokenize source)) := by
  rw [Program.run, hargs]
  dsimp only
  rw [CommandLine.Command.run, CommandLine.Command.path, h.read_eq]
  rfl

end

/-! ## The lines of a report -/

namespace LexicalError

/-- What a message adds to the character is in one line. -/
theorem lineFeed_not_mem_message {e : LexicalError} (h : '\n' ∉ e.lexeme.toList) :
    '\n' ∉ e.message.toList := by
  unfold message reason
  simp [h, Text.lineFeed_not_mem_toDigits]

/-- A line feed is never reported, so every message is in one line. -/
theorem lineFeed_not_mem_message_of_mem {source : String} {e : LexicalError}
    (he : e ∈ collect (tokenize source)) : '\n' ∉ e.message.toList := by
  rw [collect_tokenize] at he
  obtain ⟨⟨c, i⟩, hmem, rfl⟩ := List.mem_map.1 he
  have hunsupported : Unsupported c := of_decide_eq_true (List.mem_filter.1 hmem).2
  have hc : '\n' ≠ c := by
    rintro rfl
    exact not_unsupported_of_mem_whiteSpace (by decide) hunsupported
  refine lineFeed_not_mem_message ?_
  simpa [ofChar] using hc

/-- Behind a path without a line feed, a report has one line feed for each error. -/
theorem count_lineFeed_report {path : String} {errors : List LexicalError}
    (hpath : '\n' ∉ path.toList) (hmessage : ∀ e ∈ errors, '\n' ∉ e.message.toList) :
    (String.join (errors.map fun e => path ++ ": " ++ e.message ++ "\n")).toList.count '\n' =
      errors.length := by
  refine Text.count_lineFeed_join ?_
  intro e he
  refine Text.count_lineFeed_line ?_
  simp [hpath, hmessage e he]

end LexicalError

/-! ## Agreement -/

/-- `check` looks at the first error. -/
theorem check_eq (source : String) : check source =
    match (LexicalError.collect (tokenize source)).head? with
    | some e => .error e
    | none => .ok () := by
  rw [check, tokenizeStrict_eq]
  cases (LexicalError.collect (tokenize source)).head? <;> rfl

/-- Whether a text passes does not depend on how it is checked, nor does its first error. A text
that passes is read to its tokens and the program says so; on any other the program fails and
reports all errors, in their order and one on each line. -/
theorem checking_agrees {args : List String} {stdin : ByteArray} {entryAt : String → Entry}
    {source path : String} (hargs : Request.ofArgs args = .ok (.run (.check path)))
    (hsource : Supplies stdin entryAt source path) :
    [check source = .ok (), ∃ tokens, tokenizeStrict source = .ok tokens,
        LexicalError.collect (tokenize source) = [],
        (Program.run args stdin entryAt).exitCode = 0].TFAE ∧
      (LexicalError.collect (tokenize source) = [] →
        tokenizeStrict source = .ok (tokenize source) ∧
          Program.run args stdin entryAt = ⟨0, "", "OK: " ++ path ++ "\n"⟩) ∧
      (LexicalError.collect (tokenize source) ≠ [] →
        (∃ e, (LexicalError.collect (tokenize source)).head? = some e ∧
          check source = .error e ∧ tokenizeStrict source = .error e) ∧
          Program.run args stdin entryAt =
            ⟨1, "", String.join ((LexicalError.collect (tokenize source)).map fun e =>
              path ++ ": " ++ e.message ++ "\n")⟩) ∧
      (∀ e ∈ LexicalError.collect (tokenize source), '\n' ∉ e.message.toList) ∧
      ('\n' ∉ path.toList → LexicalError.collect (tokenize source) ≠ [] →
        (Program.run args stdin entryAt).stderr.toList.count '\n' =
          (LexicalError.collect (tokenize source)).length) := by
  have hmessage : ∀ e ∈ LexicalError.collect (tokenize source), '\n' ∉ e.message.toList :=
    fun _ he => LexicalError.lineFeed_not_mem_message_of_mem he
  rw [Program.run_check hargs hsource, check_eq, tokenizeStrict_eq]
  generalize LexicalError.collect (tokenize source) = errors at hmessage ⊢
  cases errors with
  | nil =>
    refine ⟨?_, ?_, nofun, nofun, ?_⟩
    · tfae_have 1 ↔ 3 := iff_of_true rfl rfl
      tfae_have 2 ↔ 3 := iff_of_true ⟨_, rfl⟩ rfl
      tfae_have 4 ↔ 3 := iff_of_true rfl rfl
      tfae_finish
    · intro _
      exact ⟨rfl, rfl⟩
    · intro _ h
      exact absurd rfl h
  | cons e errors =>
    refine ⟨?_, nofun, ?_, hmessage, ?_⟩
    · tfae_have 1 ↔ 3 := iff_of_false nofun nofun
      tfae_have 2 ↔ 3 := iff_of_false nofun nofun
      tfae_have 4 ↔ 3 := iff_of_false nofun nofun
      tfae_finish
    · intro _
      exact ⟨⟨e, rfl, rfl, rfl⟩, rfl⟩
    · intro hpath _
      exact LexicalError.count_lineFeed_report hpath hmessage

/-- Two errors in a source from standard input, in the order of the text. -/
theorem checking_agrees_two_errors :
    let entryAt : String → Entry := fun _ => .missing
    Request.ofArgs ["check", "--", "-"] = .ok (.run (.check "-")) ∧
      Supplies "a ;\n.".toUTF8 entryAt "a ;\n." "-" ∧
      check "a ;\n." = .error ⟨";", ⟨1, 3, 2⟩⟩ ∧
      Program.run ["check", "--", "-"] "a ;\n.".toUTF8 entryAt =
        ⟨1, "", "-: Lexer error at line 1, column 3: Unexpected character: ';'\n" ++
          "-: Lexer error at line 2, column 1: Unexpected character: '.'\n"⟩ := by
  intro entryAt
  have hargs := CommandLine.ofArgs_check "-"
  have hsource : Supplies "a ;\n.".toUTF8 entryAt "a ;\n." "-" := .standardInput rfl
  have herrors : LexicalError.collect (tokenize "a ;\n.") =
      [⟨";", ⟨1, 3, 2⟩⟩, ⟨".", ⟨2, 1, 4⟩⟩] := by decide +kernel
  obtain ⟨-, -, hfail, -, -⟩ := checking_agrees hargs hsource
  rw [herrors] at hfail
  obtain ⟨⟨e, hfirst, hcheck, -⟩, hrun⟩ := hfail (List.cons_ne_nil _ _)
  cases hfirst
  exact ⟨hargs, hsource, hcheck, hrun⟩

end Lexis
