import Lexis.CommandLine.Arguments
import Mathlib.Data.List.TakeWhile

/-!
# Words on the command line

What `Word.of` makes of a word, told by how the word is written: only `--` is a separator, which
words are plain does not depend on the flags that may stand there (`Plain`), and the flag `--json`
has one spelling. Words of a subcommand fall into those in front of the first separator, among
which options may stand (`optionWords`), and those behind it; the words that are no options are the
`operands`.
-/

namespace Lexis.CommandLine

/-! ## One word -/

/-- The word is no option wherever it stands: it does not begin with a dash, or it is a dash alone.
The empty word is plain. -/
def Plain (word : String) : Prop := word.toList.head? ≠ some '-' ∨ word = "-"

instance : DecidablePred Plain := fun word => by unfold Plain; infer_instance

/-- Plain words in terms of their characters, as `Word.of` looks at them. -/
theorem plain_iff {word : String} :
    Plain word ↔ word.toList.head? ≠ some '-' ∨ word.toList = ['-'] := by
  have hword : word = "-" ↔ word.toList = ['-'] := by rw [← String.toList_inj]; rfl
  rw [Plain, hword]

namespace Word

variable {α : Type} {names : FlagNames α} {word : String}

/-- Only the word `--` is a separator. -/
theorem of_eq_separator_iff : of names word = .separator ↔ word = "--" := by
  have hword : word = "--" ↔ word.toList = ['-', '-'] := by rw [← String.toList_inj]; rfl
  rw [hword, of]
  generalize word.toList = cs
  split
  · simp
  · next text htext =>
    have hcs : '-' :: '-' :: text ≠ ['-', '-'] := by simpa using htext
    refine iff_of_false ?_ hcs
    repeat' split
    all_goals exact nofun
  · next letter tail hlong hletter =>
    have hcs : '-' :: letter :: tail ≠ ['-', '-'] := by
      intro h
      cases h
      exact hletter rfl
    refine iff_of_false ?_ hcs
    split
    · exact nofun
    · exact nofun
  · next hseparator _ _ => exact iff_of_false nofun hseparator

/-- Which words are plain does not depend on the flags that may stand there. -/
theorem of_eq_plain_iff : of names word = .plain ↔ Plain word := by
  rw [plain_iff, of]
  generalize word.toList = cs
  split
  · simp
  · refine iff_of_false ?_ (by simp)
    repeat' split
    all_goals exact nofun
  · refine iff_of_false ?_ (by simp)
    split
    · exact nofun
    · exact nofun
  · next hshort =>
    refine iff_of_true rfl ?_
    rcases cs with _ | ⟨c, _ | ⟨letter, tail⟩⟩
    · exact .inl nofun
    · by_cases hc : c = '-'
      · exact .inr (by rw [hc])
      · exact .inl (by simpa using hc)
    · refine .inl ?_
      intro hc
      cases hc
      exact hshort letter tail rfl

end Word

namespace Verb

/-- The flag `--json` has one long name, which `tokens` alone has. -/
theorem long_eq_json {verb : Verb} {name : String} (h : verb.flagNames.long name = some .json) :
    verb = .tokens ∧ name = "json" := by
  unfold flagNames at h
  dsimp only at h
  split at h
  · cases h
  · split at h
    · next hjson =>
      rw [Bool.and_eq_true, decide_eq_true_iff] at hjson
      cases verb with
      | tokens => exact ⟨rfl, hjson.2⟩
      | check => cases hjson.1
    · cases h

/-- The flag `--json` has no short name. -/
theorem short_ne_json {verb : Verb} {letter : Char} :
    verb.flagNames.short letter ≠ some .json := by
  unfold flagNames
  dsimp only
  split <;> exact nofun

end Verb

/-- The flag `--json` is written out, and takes no value. -/
theorem Word.of_eq_json_iff {verb : Verb} {word : String} :
    of verb.flagNames word = .flag .json ↔ verb = .tokens ∧ word = "--json" := by
  constructor
  · have hword : word = "--json" ↔ word.toList = ['-', '-', 'j', 's', 'o', 'n'] := by
      rw [← String.toList_inj]; rfl
    rw [hword, of]
    generalize word.toList = cs
    intro h
    split at h
    · cases h
    · next text _ =>
      split at h
      · cases h
      · next hlong =>
        split at h
        · cases h
        · next hvalue =>
          cases h
          have htext : text.takeWhile (· ≠ '=') = text := by
            rw [List.takeWhile_eq_self_iff]
            intro c hc
            exact decide_eq_true (ne_of_mem_of_not_mem hc hvalue)
          obtain ⟨rfl, hname⟩ := Verb.long_eq_json hlong
          have hjson : text = ['j', 's', 'o', 'n'] := by
            have hlist := congrArg String.toList hname
            rwa [String.toList_ofList, htext] at hlist
          exact ⟨rfl, by rw [hjson]⟩
    · split at h
      · cases h
      · next hshort =>
        cases h
        exact absurd hshort Verb.short_ne_json
    · cases h
  · rintro ⟨rfl, rfl⟩
    decide

/-! ## The words of a subcommand -/

/-- The words in front of the first word `--`, among which options may stand. -/
def optionWords (words : List String) : List String := words.takeWhile (· ≠ "--")

/-- The words that are no options: the plain ones in front of the first word `--`, and all that
stand behind it. -/
def operands (words : List String) : List String :=
  (optionWords words).filter (Plain ·) ++ (words.dropWhile (· ≠ "--")).tail

section
variable {word : String} {words front : List String}

/-- The separator is not plain. -/
theorem Plain.ne_separator (h : Plain word) : word ≠ "--" := by
  rintro rfl
  revert h
  decide

/-- The flag `--json` is not plain. -/
theorem Plain.ne_json (h : Plain word) : word ≠ "--json" := by
  rintro rfl
  revert h
  decide

/-- Options may stand up to the first separator. -/
theorem optionWords_cons (h : word ≠ "--") :
    optionWords (word :: words) = word :: optionWords words := by
  simp [optionWords, h]

/-- A plain word is an operand wherever it stands. -/
theorem operands_cons_of_plain (h : Plain word) :
    operands (word :: words) = word :: operands words := by
  simp [operands, optionWords, h, h.ne_separator]

/-- In front of the separator a word that is not plain is no operand. -/
theorem operands_cons_of_not_plain (hne : word ≠ "--") (h : ¬ Plain word) :
    operands (word :: words) = operands words := by
  simp [operands, optionWords, h, hne]

/-! ### Words in front of a separator -/

/-- Words without a separator do not end those among which options may stand. -/
theorem optionWords_append (h : "--" ∉ front) (behind : List String) :
    optionWords (front ++ behind) = front ++ optionWords behind := by
  refine List.takeWhile_append_of_pos ?_
  intro word hword
  exact decide_eq_true (ne_of_mem_of_not_mem hword h)

/-- Of words without a separator the plain ones are operands. -/
theorem operands_append (h : "--" ∉ front) (behind : List String) :
    operands (front ++ behind) = front.filter (Plain ·) ++ operands behind := by
  have hdrop : (front ++ behind).dropWhile (· ≠ "--") = behind.dropWhile (· ≠ "--") := by
    refine List.dropWhile_append_of_pos ?_
    intro word hword
    exact decide_eq_true (ne_of_mem_of_not_mem hword h)
  rw [operands, optionWords_append h, hdrop, List.filter_append, List.append_assoc, operands]

end

end Lexis.CommandLine
