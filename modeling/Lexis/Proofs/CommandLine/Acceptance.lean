import Lexis.Proofs.CommandLine.Words

/-!
# What a subcommand accepts

The words that a subcommand makes a command of, told as a whole (`Verb.Accepts`): there is one
operand, and the only option is one flag at most, wherever it stands. Reading goes from left to
right with what the words before have given, so acceptance is told from any point on as well
(`Given.Accepts`), with an equation for each kind of word that may come next. `readWords_eq_ok_iff`
follows from these, by induction on the words.
-/

namespace Lexis.CommandLine

/-- The name of a subcommand. -/
def Verb.name : Verb → String
  | .tokens => "tokens"
  | .check => "check"

/-- The subcommand knows the word where options may stand: it is plain, or it is the flag `--json`
of `tokens`. -/
def Verb.Knows (verb : Verb) (word : String) : Prop :=
  Plain word ∨ verb = .tokens ∧ word = "--json"

/-- The subcommand accepts the words, for a source at `path`: it knows all words where options may
stand, the flag `--json` is there once at most, and the path is the only operand. -/
structure Verb.Accepts (verb : Verb) (words : List String) (path : String) : Prop where
  knows : ∀ word ∈ optionWords words, verb.Knows word
  count_json_le : (optionWords words).count "--json" ≤ 1
  operands_eq : operands words = [path]

/-- The subcommand accepts the words from some point on, when those in front have given `g`. -/
structure Given.Accepts (g : Given) (verb : Verb) (words : List String) (path : String) : Prop where
  knows : ∀ word ∈ optionWords words, verb.Knows word
  count_json_le : g.json.toNat + (optionWords words).count "--json" ≤ 1
  operands_eq : g.path.toList ++ operands words = [path]

section
variable {verb : Verb} {g g' : Given} {word path : String} {words : List String} {c : Command}

/-- With nothing given, what is accepted is what the subcommand accepts as a whole. -/
theorem Given.nothing_accepts_iff : nothing.Accepts verb words path ↔ verb.Accepts words path := by
  constructor
  · rintro ⟨hwords, hcount, hoperands⟩
    exact ⟨hwords, by simpa [nothing] using hcount, hoperands⟩
  · rintro ⟨hwords, hcount, hoperands⟩
    exact ⟨hwords, by simpa [nothing] using hcount, hoperands⟩

/-- A composition succeeds when its parts do, one after the other. -/
theorem bind_eq_ok_iff {ε α β : Type} {x : Except ε α} {f : α → Except ε β} {b : β} :
    x >>= f = .ok b ↔ ∃ a, x = .ok a ∧ f a = .ok b := by
  cases x with
  | error e => exact iff_of_false nofun (by simp)
  | ok a => exact ⟨fun h => ⟨a, rfl, h⟩, fun ⟨_, ha, h⟩ => by cases ha; exact h⟩

namespace Given

/-! ### One word more -/

/-- At the end of the words the path must have been given. -/
theorem accepts_nil_iff : g.Accepts verb [] path ↔ g.path = some path := by
  constructor
  · rintro ⟨-, -, hoperands⟩
    cases hpath : g.path with
    | none => simp [hpath, operands, optionWords] at hoperands
    | some first => simpa [hpath, operands, optionWords] using hoperands
  · intro hpath
    refine ⟨List.forall_mem_nil _, ?_, ?_⟩
    · simpa [optionWords] using Bool.toNat_le g.json
    · simp [hpath, operands, optionWords]

/-- Behind the first `--` all words are operands, of which there is one with those given. -/
theorem accepts_separator_iff :
    g.Accepts verb ("--" :: words) path ↔ g.path.toList ++ words = [path] := by
  have hoperands : operands ("--" :: words) = words := rfl
  have hoptions : optionWords ("--" :: words) = [] := rfl
  constructor
  · intro h
    rw [← h.operands_eq, hoperands]
  · intro h
    refine ⟨by rw [hoptions]; exact nofun, ?_, by rw [hoperands, h]⟩
    simpa [hoptions] using Bool.toNat_le g.json

/-- A plain word is accepted as the path, unless one has been given. -/
theorem accepts_plain_iff (h : Plain word) : g.Accepts verb (word :: words) path ↔
    g.path = none ∧ Accepts { g with path := some word } verb words path := by
  have hoptions : optionWords (word :: words) = word :: optionWords words :=
    optionWords_cons h.ne_separator
  have hcount : (optionWords (word :: words)).count "--json" =
      (optionWords words).count "--json" := by
    rw [hoptions, List.count_cons_of_ne h.ne_json]
  constructor
  · rintro ⟨hwords, hjson, hoperands⟩
    rw [operands_cons_of_plain h] at hoperands
    rw [hoptions, List.forall_mem_cons] at hwords
    rw [hcount] at hjson
    cases hpath : g.path with
    | none =>
      rw [hpath] at hoperands
      exact ⟨rfl, hwords.2, hjson, hoperands⟩
    | some first => simp [hpath] at hoperands
  · rintro ⟨hpath, hwords, hjson, hoperands⟩
    refine ⟨?_, ?_, ?_⟩
    · rw [hoptions, List.forall_mem_cons]
      exact ⟨.inl h, hwords⟩
    · rw [hcount]
      exact hjson
    · rw [hpath, operands_cons_of_plain h]
      exact hoperands

/-- The flag `--json` is accepted from `tokens`, unless it has been given. -/
theorem accepts_json_iff : g.Accepts .tokens ("--json" :: words) path ↔
    g.json = false ∧ Accepts { g with json := true } .tokens words path := by
  have hoptions : optionWords ("--json" :: words) = "--json" :: optionWords words :=
    optionWords_cons (by decide)
  have hoperands : operands ("--json" :: words) = operands words :=
    operands_cons_of_not_plain (by decide) (by decide)
  constructor
  · rintro ⟨hwords, hjson, hpath⟩
    rw [hoptions, List.forall_mem_cons] at hwords
    rw [hoptions, List.count_cons_self] at hjson
    rw [hoperands] at hpath
    cases hg : g.json with
    | false =>
      rw [hg] at hjson
      exact ⟨rfl, hwords.2, by simpa [Nat.add_comm] using hjson, hpath⟩
    | true =>
      rw [hg, Bool.toNat_true] at hjson
      omega
  · rintro ⟨hg, hwords, hjson, hpath⟩
    refine ⟨?_, ?_, ?_⟩
    · rw [hoptions, List.forall_mem_cons]
      exact ⟨.inr ⟨rfl, rfl⟩, hwords⟩
    · rw [hoptions, List.count_cons_self, hg]
      simpa [Nat.add_comm] using hjson
    · rw [hoperands]
      exact hpath

/-- A word of any other kind is not accepted, whatever follows. -/
theorem not_exists_accepts {motive : String → Prop}
    (hword : Word.of verb.flagNames word ∉ [.separator, .plain, .flag .json]) :
    ¬ ∃ path, g.Accepts verb (word :: words) path ∧ motive path := by
  simp only [List.mem_cons, List.not_mem_nil, or_false, not_or, Word.of_eq_separator_iff,
    Word.of_eq_plain_iff, Word.of_eq_json_iff] at hword
  obtain ⟨hseparator, hplain, hjson⟩ := hword
  rintro ⟨path, haccepts, -⟩
  have hknows := haccepts.knows
  rw [optionWords_cons hseparator, List.forall_mem_cons] at hknows
  exact hknows.1.elim hplain hjson

/-! ### What is taken -/

/-- A plain word is taken exactly when no path has been given. -/
theorem takePlain_eq_ok_iff :
    g.takePlain word = .ok g' ↔ g.path = none ∧ { g with path := some word } = g' := by
  unfold takePlain
  split
  · next hpath => simp [hpath]
  · next hpath => simp [hpath]

/-- The flag is taken exactly when it has not been given. -/
theorem takeJson_eq_ok_iff :
    g.takeJson = .ok g' ↔ g.json = false ∧ { g with json := true } = g' := by
  unfold takeJson
  split
  · next hjson => simp [hjson]
  · next hjson => simp [hjson]

/-- The end of the words makes a command exactly when a path has been given. -/
theorem finish_eq_ok_iff : g.finish verb = .ok (.run c) ↔
    ∃ path, g.path = some path ∧ c = verb.command path g.json := by
  unfold finish
  split
  · next hpath => simp [hpath]
  · next path hpath => simp [hpath, eq_comm]

/-- Behind the word `--` one word makes a command, or none if there is a path. -/
theorem foldlM_takePlain_eq_ok_iff : words.foldlM takePlain g >>= finish verb = .ok (.run c) ↔
    ∃ path, g.path.toList ++ words = [path] ∧ c = verb.command path g.json := by
  induction words generalizing g with
  | nil =>
    rw [List.foldlM_nil, pure_bind, finish_eq_ok_iff]
    cases g.path <;> simp
  | cons word words ih =>
    rw [List.foldlM_cons, bind_assoc, bind_eq_ok_iff]
    constructor
    · rintro ⟨g', htake, hrest⟩
      obtain ⟨hpath, rfl⟩ := takePlain_eq_ok_iff.1 htake
      obtain ⟨path, hpaths, rfl⟩ := ih.1 hrest
      refine ⟨path, ?_, rfl⟩
      rw [hpath]
      exact hpaths
    · rintro ⟨path, hpaths, rfl⟩
      cases hpath : g.path with
      | none =>
        rw [hpath] at hpaths
        exact ⟨_, takePlain_eq_ok_iff.2 ⟨hpath, rfl⟩, ih.2 ⟨path, hpaths, rfl⟩⟩
      | some first => simp [hpath] at hpaths

end Given

/-- Words make a command exactly when the subcommand accepts them, from any point on. -/
theorem readWords_eq_ok_iff : readWords verb g words = .ok (.run c) ↔
    ∃ path, g.Accepts verb words path ∧
      c = verb.command path (g.json || decide ("--json" ∈ optionWords words)) := by
  induction words generalizing g with
  | nil =>
    rw [readWords, Given.finish_eq_ok_iff]
    simp only [Given.accepts_nil_iff, optionWords, List.takeWhile_nil, List.not_mem_nil,
      decide_false, Bool.or_false]
  | cons word words ih =>
    rw [readWords]
    cases hword : Word.of verb.flagNames word with
    | separator =>
      obtain rfl := Word.of_eq_separator_iff.1 hword
      have hoptions : optionWords ("--" :: words) = [] := rfl
      simp only [Given.accepts_separator_iff, hoptions, List.not_mem_nil, decide_false,
        Bool.or_false]
      exact Given.foldlM_takePlain_eq_ok_iff
    | plain =>
      have hplain : Plain word := Word.of_eq_plain_iff.1 hword
      have hmem : "--json" ∈ optionWords (word :: words) ↔ "--json" ∈ optionWords words := by
        rw [optionWords_cons hplain.ne_separator, List.mem_cons, or_iff_right hplain.ne_json.symm]
      simp only [bind_eq_ok_iff, Given.takePlain_eq_ok_iff, Given.accepts_plain_iff hplain, hmem,
        and_assoc, exists_and_left, exists_eq_left', ih]
    | flag named =>
      cases named with
      | json =>
        obtain ⟨rfl, rfl⟩ := Word.of_eq_json_iff.1 hword
        have hmem : "--json" ∈ optionWords ("--json" :: words) := List.mem_cons_self
        simp only [bind_eq_ok_iff, Given.takeJson_eq_ok_iff, Given.accepts_json_iff, hmem,
          and_assoc, exists_and_left, exists_eq_left', ih, decide_true, Bool.or_true, Bool.true_or]
      | help => exact iff_of_false (by simp) (Given.not_exists_accepts (by simp [hword]))
    | valuedFlag named => exact iff_of_false (by simp) (Given.not_exists_accepts (by simp [hword]))
    | unknownOption => exact iff_of_false (by simp) (Given.not_exists_accepts (by simp [hword]))

end

end Lexis.CommandLine
