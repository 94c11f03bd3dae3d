import Lexis.Proofs.Machine.Reading
import Lexis.Proofs.Scanner.Progress

/-!
# No step of a machine fails

`machine_never_faults`: on a text of at most 2 ^ 64 - 2 characters, no state that a machine gets
into makes its next step fail. The invariant `Machine.Inv` holds of all of them, and with it the
bounds on the counters. That machines do what scanners do is part of the theorem: where they rest
they hold what the reachable scanners hold, and no more than that.
-/

namespace Lexis

/-- The scanners that show the tokens of a text are reachable. -/
theorem Scanner.reachable_nth (source : String) (k : Nat) :
    Reachable source (nth (.ofString source) k) := by
  induction k with
  | zero => exact ⟨_, .new, List.mem_singleton_self _⟩
  | succ k ih =>
    rw [nth_succ]
    exact ih.advance

namespace Machine

variable {source : String} {m m' : Machine} {s : Scanner}

/-- A new machine has all of the text in front of it. -/
theorem cursor_ofString (source : String) : (ofString source).cursor = .ofString source := rfl

/-- A new machine is on the way to the first token. -/
theorem goal_ofString (source : String) : (ofString source).goal = .ofString source := by
  rw [goal, cursor_ofString]
  rfl

/-- A machine that rests has come to its goal. -/
theorem goal_of_resting (h : m.phase = .resting) : m.goal = ⟨m.token, m.cursor⟩ := by
  simp only [goal, h]

/-- The invariant holds of a new machine. -/
theorem inv_ofString (hsize : source.length ≤ UInt64.size - 2) : (ofString source).Inv source :=
  ⟨⟨hsize, rfl, Position.counts_after_origin [] source.toList⟩, trivial⟩

/-- Each step succeeds, keeps the invariant and goes for the same token or, from a complete one, for
the next. -/
theorem Inv.exists_step (h : m.Inv source) : ∃ m', m.step = .ok m' ∧ m'.Inv source ∧
    (m'.goal = m.goal ∨ m'.goal = m.goal.advance) := by
  by_cases hphase : m.phase = .resting
  · obtain ⟨m', hstep, hinv, hgoal⟩ := h.step_resting hphase
    exact ⟨m', hstep, hinv, .inr hgoal⟩
  · obtain ⟨m', hstep, hleads⟩ := h.exists_leads hphase
    exact ⟨m', hstep, hleads.inv, .inl hleads.goal_eq⟩

/-- The invariant holds on the whole run, and its goals are reachable scanners. -/
theorem Reachable.inv_and_goal (hsize : source.length ≤ UInt64.size - 2) (h : Reachable source m) :
    m.Inv source ∧ Scanner.Reachable source m.goal := by
  induction h with
  | new =>
    rw [goal_ofString]
    exact ⟨inv_ofString hsize, Scanner.reachable_nth source 0⟩
  | step _ hstep ih =>
    obtain ⟨hinv, hreach⟩ := ih
    obtain ⟨_, hstep', hinv', hgoal⟩ := hinv.exists_step
    cases hstep.symm.trans hstep'
    refine ⟨hinv', ?_⟩
    rcases hgoal with hgoal | hgoal
    · rwa [hgoal]
    · rw [hgoal]
      exact hreach.advance

/-- A machine comes to its goal, since each step on the way gets nearer to it. -/
theorem Inv.exists_resting {m : Machine} (h : m.Inv source) (hreach : Reachable source m) :
    ∃ m', Reachable source m' ∧ m'.phase = .resting ∧ m'.goal = m.goal := by
  by_cases hphase : m.phase = .resting
  · exact ⟨m, hreach, hphase, rfl⟩
  · obtain ⟨m', hstep, hleads⟩ := h.exists_leads hphase
    obtain ⟨m'', hreach', hresting, hgoal⟩ := hleads.inv.exists_resting (hreach.step hstep)
    exact ⟨m'', hreach', hresting, hgoal.trans hleads.goal_eq⟩
termination_by m.pending
decreasing_by exact hleads.pending_lt

/-- Every reachable scanner is the goal of a machine that has come to it. -/
theorem exists_resting_of_scanner (hsize : source.length ≤ UInt64.size - 2)
    (h : Scanner.Reachable source s) :
    ∃ m, Reachable source m ∧ m.phase = .resting ∧ m.goal = s := by
  refine h.rec_advance (motive := fun s => ∃ m, Reachable source m ∧ m.phase = .resting ∧
    m.goal = s) ?_ ?_
  · rw [← goal_ofString]
    exact (inv_ofString hsize).exists_resting .new
  · rintro s ⟨m, hm, hresting, rfl⟩
    obtain ⟨m', hstep, hinv, hgoal⟩ := (hm.inv_and_goal hsize).1.step_resting hresting
    rw [← hgoal]
    exact hinv.exists_resting (hm.step hstep)

end Machine

open Machine

/-- On a text of at most 2 ^ 64 - 2 characters, every state that a machine gets into makes a step
without a fault: no index is outside of the text, no lexeme is empty or reaches beyond the text, no
span is inverted, and no counter overflows. Its offset is in the text, and line and column, which
begin at one, are together larger than the offset by no more than two. The machines that rest hold
the tokens and the cursors of the reachable scanners, all tokens of the text among them. -/
theorem machine_never_faults {source : String} (hsize : source.length ≤ UInt64.size - 2) :
    (∀ m, Reachable source m →
      (∃ m', m.step = .ok m') ∧ m.offset.toNat ≤ source.length ∧ m.position.Bounded) ∧
    (∀ s, Scanner.Reachable source s ↔
      ∃ m, Reachable source m ∧ m.phase = .resting ∧ s = ⟨m.token, m.cursor⟩) ∧
    ∀ t ∈ tokenize source, ∃ m, Reachable source m ∧ m.phase = .resting ∧ m.token = t := by
  have hresting : ∀ s, Scanner.Reachable source s →
      ∃ m, Reachable source m ∧ m.phase = .resting ∧ s = ⟨m.token, m.cursor⟩ := by
    intro s hs
    obtain ⟨m, hm, hphase, rfl⟩ := exists_resting_of_scanner hsize hs
    exact ⟨m, hm, hphase, goal_of_resting hphase⟩
  refine ⟨?_, ?_, ?_⟩
  · intro m hm
    have hinv := (hm.inv_and_goal hsize).1
    obtain ⟨m', hstep, -⟩ := hinv.exists_step
    have hoffset : m.position.offset ≤ source.toList.length := hinv.placed.counts.offset_le
    rw [String.length_toList] at hoffset
    exact ⟨⟨m', hstep⟩, hoffset, hinv.placed.counts.bounded⟩
  · intro s
    refine ⟨hresting s, ?_⟩
    rintro ⟨m, hm, hphase, rfl⟩
    rw [← goal_of_resting hphase]
    exact (hm.inv_and_goal hsize).2
  · intro t ht
    rw [tokenize, Cursor.tokens_eq_map_nth] at ht
    obtain ⟨k, -, rfl⟩ := List.mem_map.1 ht
    obtain ⟨m, hm, hphase, heq⟩ := hresting _ (Scanner.reachable_nth source k)
    exact ⟨m, hm, hphase, (congrArg Scanner.token heq).symm⟩

/-- Inside a number, between its sign and its digit. -/
theorem machine_never_faults_sign :
    let m : Machine := { ofString "-1\n" with offset := 1, column := 2, phase := .number .origin }
    "-1\n".length ≤ UInt64.size - 2 ∧ Reachable "-1\n" m ∧ (∃ m', m.step = .ok m') ∧
      m.position.Bounded := by
  intro m
  have hsize : "-1\n".length ≤ UInt64.size - 2 := by decide
  have hm : Reachable "-1\n" m := (Reachable.new.step rfl).step rfl
  obtain ⟨hstep, -, hbounded⟩ := (machine_never_faults hsize).1 m hm
  exact ⟨hsize, hm, hstep, hbounded⟩

end Lexis
