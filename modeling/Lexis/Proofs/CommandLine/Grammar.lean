import Lexis.Proofs.CommandLine.Acceptance

/-!
# The grammar of the arguments

The arguments that make a command are the name of a subcommand and the words that it accepts
(`ofArgs_eq_ok_iff`), among which the flag may stand anywhere in front of the separator
(`accepts_append_json_iff`). Reading stops at the first problem: an outcome is `Settled` if it does
not come from the end of the arguments, and then no word behind them changes it (`ofArgs_append`).
`arguments_grammar` puts both together.
-/

namespace Lexis.CommandLine

section
variable {verb : Verb} {g : Given} {word path : String} {words : List String} {c : Command}

/-! ## The first problem decides -/

/-- Reading has stopped at a word: at a problem, or at a flag that asks for help or the version. The
outcome is neither a command nor that there were too few words. -/
structure Settled (outcome : Except UsageError Request) : Prop where
  not_run : ∀ c, outcome ≠ .ok (.run c)
  not_missingPath : outcome ≠ .error .missingPath
  not_missingCommand : outcome ≠ .error .missingCommand

/-- Words that are at an end with no problem so far are not settled: they make a command, or a path
is missing. -/
theorem Given.not_settled_finish : ¬ Settled (g.finish verb) := by
  intro h
  cases hpath : g.path with
  | none => exact h.not_missingPath (by rw [finish, hpath])
  | some path => exact h.not_run _ (by rw [finish, hpath])

/-- The words of a subcommand are read up to the first problem. -/
theorem readWords_append (h : Settled (readWords verb g words)) (extra : List String) :
    readWords verb g (words ++ extra) = readWords verb g words := by
  induction words generalizing g with
  | nil => exact absurd h Given.not_settled_finish
  | cons word words ih =>
    rw [readWords] at h
    rw [List.cons_append, readWords, readWords]
    cases hword : Word.of verb.flagNames word with
    | separator =>
      rw [hword] at h
      dsimp only at h ⊢
      rw [List.foldlM_append]
      cases hfold : words.foldlM Given.takePlain g with
      | error e => rfl
      | ok g' =>
        rw [hfold] at h
        exact absurd h Given.not_settled_finish
    | plain =>
      rw [hword] at h
      dsimp only at h ⊢
      cases htake : g.takePlain word with
      | error e => rfl
      | ok g' =>
        rw [htake] at h
        exact ih h
    | flag named =>
      cases named with
      | help => rfl
      | json =>
        rw [hword] at h
        dsimp only at h ⊢
        cases htake : g.takeJson with
        | error e => rfl
        | ok g' =>
          rw [htake] at h
          exact ih h
    | valuedFlag named => rfl
    | unknownOption => rfl

/-! ## All arguments -/

/-- A word names a subcommand with a source exactly when it is its name. -/
theorem ofWord?_eq_run_iff : Subcommand.ofWord? word = some (.run verb) ↔ word = verb.name := by
  constructor
  · intro h
    unfold Subcommand.ofWord? at h
    split at h
    · next hword => cases h; exact hword
    · split at h
      · next hword => cases h; exact hword
      · split at h <;> cases h
  · rintro rfl
    cases verb <;> rfl

/-- Only the word `help` names the subcommand that explains. -/
theorem eq_help_of_ofWord? (h : Subcommand.ofWord? word = some .help) : word = "help" := by
  unfold Subcommand.ofWord? at h
  split at h
  · cases h
  · split at h
    · cases h
    · split at h
      · next hword => exact hword
      · cases h

/-- The words behind `help` make no command. -/
theorem readTopic_ne_run : readTopic words ≠ .ok (.run c) := by
  unfold readTopic
  repeat' split
  all_goals exact nofun

/-- Behind the name of a subcommand its words are read, with nothing given. -/
theorem ofArgs_name_cons : Request.ofArgs (verb.name :: words) = readWords verb .nothing words := by
  cases verb <;> rfl

/-- Only the name of a subcommand begins the arguments that make a command. -/
theorem exists_of_ofArgs_eq_ok {args : List String} (h : Request.ofArgs args = .ok (.run c)) :
    ∃ verb words, args = Verb.name verb :: words := by
  cases args with
  | nil => cases h
  | cons word words =>
    rw [Request.ofArgs] at h
    split at h
    · cases h
    · cases h
    · cases h
    · cases h
    · cases h
    · split at h
      · cases h
      · exact absurd h readTopic_ne_run
      · next verb hverb => exact ⟨verb, words, by rw [ofWord?_eq_run_iff.1 hverb]⟩

/-- The subcommands and the words that they accept are all that makes a command. -/
theorem ofArgs_eq_ok_iff {args : List String} : Request.ofArgs args = .ok (.run c) ↔
    ∃ verb words path, args = Verb.name verb :: words ∧ verb.Accepts words path ∧
      c = verb.command path (decide ("--json" ∈ optionWords words)) := by
  constructor
  · intro h
    obtain ⟨verb, words, rfl⟩ := exists_of_ofArgs_eq_ok h
    rw [ofArgs_name_cons, readWords_eq_ok_iff] at h
    obtain ⟨path, haccepts, hc⟩ := h
    exact ⟨verb, words, path, rfl, Given.nothing_accepts_iff.1 haccepts, hc⟩
  · rintro ⟨verb, words, path, rfl, haccepts, hc⟩
    rw [ofArgs_name_cons, readWords_eq_ok_iff]
    exact ⟨path, Given.nothing_accepts_iff.2 haccepts, hc⟩

/-- Arguments are read up to the first problem, but for those of `help`. -/
theorem ofArgs_append {args : List String} (hhelp : args.head? ≠ some "help")
    (h : Settled (Request.ofArgs args)) (extra : List String) :
    Request.ofArgs (args ++ extra) = Request.ofArgs args := by
  cases args with
  | nil => exact absurd rfl h.not_missingCommand
  | cons word words =>
    rw [Request.ofArgs] at h
    rw [List.cons_append, Request.ofArgs, Request.ofArgs]
    cases hword : Word.of ProgramFlag.names word with
    | separator =>
      rw [hword] at h
      cases words with
      | nil => exact absurd rfl h.not_missingCommand
      | cons second words => rfl
    | flag named => cases named <;> rfl
    | valuedFlag named => rfl
    | unknownOption => rfl
    | plain =>
      rw [hword] at h
      dsimp only at h ⊢
      cases hsubcommand : Subcommand.ofWord? word with
      | none => rfl
      | some subcommand =>
        cases subcommand with
        | help => exact absurd (by rw [eq_help_of_ofWord? hsubcommand]; rfl) hhelp
        | run verb =>
          rw [hsubcommand] at h
          exact readWords_append h extra

/-! ## Where the flag stands -/

/-- The flag `--json` may be put anywhere in front of the word `--`, where there is none yet. -/
theorem accepts_append_json_iff {front : List String} (h : "--" ∉ front) (behind : List String) :
    Verb.tokens.Accepts (front ++ "--json" :: behind) path ↔
      Verb.tokens.Accepts (front ++ behind) path ∧ "--json" ∉ optionWords (front ++ behind) := by
  have hjson : optionWords ("--json" :: behind) = "--json" :: optionWords behind :=
    optionWords_cons (by decide)
  have hoperands : operands (front ++ "--json" :: behind) = operands (front ++ behind) := by
    rw [operands_append h, operands_append h, operands_cons_of_not_plain (by decide) (by decide)]
  have hcount : (optionWords (front ++ "--json" :: behind)).count "--json" =
      (optionWords (front ++ behind)).count "--json" + 1 := by
    rw [optionWords_append h, optionWords_append h, hjson, List.count_append, List.count_append,
      List.count_cons_self, Nat.add_assoc]
  have hwords : (∀ word ∈ optionWords (front ++ "--json" :: behind), Verb.tokens.Knows word) ↔
      ∀ word ∈ optionWords (front ++ behind), Verb.tokens.Knows word := by
    rw [optionWords_append h, optionWords_append h, hjson, List.forall_mem_append,
      List.forall_mem_append, List.forall_mem_cons]
    exact and_congr_right' (and_iff_right (.inr ⟨rfl, rfl⟩))
  rw [← List.count_eq_zero]
  constructor
  · rintro ⟨hknows, hle, hpath⟩
    rw [hcount] at hle
    exact ⟨⟨hwords.1 hknows, by omega, hoperands ▸ hpath⟩, by omega⟩
  · rintro ⟨⟨hknows, -, hpath⟩, hzero⟩
    exact ⟨hwords.2 hknows, by omega, hoperands.trans hpath⟩

/-- What makes the command `tokens`, with the flag and without. -/
theorem ofArgs_tokens_iff {json : Bool} :
    Request.ofArgs ("tokens" :: words) = .ok (.run (.tokens path json)) ↔
      Verb.tokens.Accepts words path ∧ decide ("--json" ∈ optionWords words) = json := by
  rw [ofArgs_eq_ok_iff]
  constructor
  · rintro ⟨verb, words', path', hargs, haccepts, hcommand⟩
    cases verb with
    | check => cases hcommand
    | tokens =>
      cases hargs
      cases hcommand
      exact ⟨haccepts, rfl⟩
  · rintro ⟨haccepts, rfl⟩
    exact ⟨.tokens, words, path, rfl, haccepts, rfl⟩

end

/-- Arguments make a command exactly when they are a subcommand and words that it accepts, and then
the path is the operand, and the flag is set when it stands in front of the first word `--`. So the
flag may stand anywhere there, and any word at all can be the path behind `--`. Of arguments that
make no command, but for those that begin with `help`, the first problem decides: unless a path or a
subcommand is missing in them, further words change nothing. -/
theorem arguments_grammar :
    (∀ args c, Request.ofArgs args = .ok (.run c) ↔
      ∃ verb words path, args = Verb.name verb :: words ∧ verb.Accepts words path ∧
        c = verb.command path (decide ("--json" ∈ optionWords words))) ∧
      (∀ front behind path, "--" ∉ front →
        (Request.ofArgs ("tokens" :: front ++ "--json" :: behind) = .ok (.run (.tokens path true)) ↔
          Request.ofArgs ("tokens" :: front ++ behind) = .ok (.run (.tokens path false)))) ∧
      (∀ (verb : Verb) (path : String),
        Request.ofArgs [verb.name, "--", path] = .ok (.run (verb.command path false))) ∧
      ∀ args, args.head? ≠ some "help" → Settled (Request.ofArgs args) →
        ∀ extra, Request.ofArgs (args ++ extra) = Request.ofArgs args := by
  refine ⟨fun _ _ => ofArgs_eq_ok_iff, ?_, ?_, fun _ => ofArgs_append⟩
  · intro front behind path hfront
    have hmem : "--json" ∈ optionWords (front ++ "--json" :: behind) := by
      rw [optionWords_append hfront]
      exact List.mem_append_right _ List.mem_cons_self
    rw [List.cons_append, List.cons_append, ofArgs_tokens_iff, ofArgs_tokens_iff,
      accepts_append_json_iff hfront, decide_eq_false_iff_not, and_iff_left (decide_eq_true hmem)]
  · intro verb path
    cases verb <;> rfl

/-- The flag may follow the path, which a word `--` may follow. -/
theorem arguments_grammar_late_flag :
    Request.ofArgs ["tokens", "-", "--json", "--"] = .ok (.run (.tokens "-" true)) ∧
      Settled (Request.ofArgs ["check", "a", "-V"]) ∧
      Request.ofArgs ["check", "a", "-V", "--", "b"] = .error (.unknownArgument "-V") := by
  obtain ⟨-, hflag, -, hfirst⟩ := arguments_grammar
  have herror : Request.ofArgs ["check", "a", "-V"] = .error (.unknownArgument "-V") := rfl
  have hsettled : Settled (Request.ofArgs ["check", "a", "-V"]) := by
    rw [herror]
    exact ⟨nofun, nofun, nofun⟩
  refine ⟨(hflag ["-"] ["--"] "-" (by decide)).2 rfl, hsettled, ?_⟩
  exact (hfirst ["check", "a", "-V"] (by decide) hsettled ["--", "b"]).trans herror

end Lexis.CommandLine
