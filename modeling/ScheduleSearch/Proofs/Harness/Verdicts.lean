import ScheduleSearch.Harness.Check
import ScheduleSearch.Proofs.Decision.Retrace

/-!
# Verdicts

A deterministic test shows itself to the explorer as a decision program whose leaves say how the
execution ends.  A check runs the leaves that are left, one after the other, and stops at the
first failure, at the limit of executions, or when nothing is left to try.  What it leaves behind
is the explorer after as many executions, so the next check goes on from there.
-/

namespace ScheduleSearch.Harness

open DepthFirst

variable {τ : Type}

/-- The test makes the decisions of a program, fails as the leaf it is led to says, and remembers
this leaf. -/
def Plays (test : Test τ DepthFirst) (program : DecisionProgram (Option Fault))
    (remember : τ → Leaf (Option Fault) → τ) : Prop :=
  ∀ memory explorer leaf arrived, program.Leads explorer leaf arrived →
    test memory explorer = (leaf.outcome, remember memory leaf, arrived)

/-- The test that walks a program. -/
def playing (program : DecisionProgram (Option Fault)) (remember : τ → Leaf (Option Fault) → τ) :
    Test τ DepthFirst := fun memory explorer =>
  match program.walk explorer with
  | (some leaf, arrived) => (leaf.outcome, remember memory leaf, arrived)
  | (none, arrived) => (none, memory, arrived)

private theorem plays_playing (program : DecisionProgram (Option Fault))
    (remember : τ → Leaf (Option Fault) → τ) : Plays (playing program remember) program remember := by
  intro memory explorer leaf arrived leads
  rw [playing, DecisionProgram.walk_of_leads leads]

/-- What a check must come to if `explored` leaves were run before: `outcome` is its verdict, what
the test remembers, and the harness afterwards. -/
structure Judged (program : DecisionProgram (Option Fault))
    (remember : τ → Leaf (Option Fault) → τ) (harness : Harness DepthFirst) (explored : Nat)
    (memory : τ) (outcome : Verdict × τ × Harness DepthFirst) : Prop where
  /-- The first failure within the limit is reported. -/
  failed : ∀ passed leaf fault others,
    program.leaves.drop explored = passed ++ leaf :: others →
    (∀ earlier ∈ passed, earlier.outcome = none) → leaf.outcome = some fault →
    (∀ most ∈ harness.config.maxIterations, passed.length + 1 ≤ most) →
    outcome = (.failed ⟨fault, leaf.trace, passed.length + 1⟩,
      (passed ++ [leaf]).foldl remember memory,
      { harness with explorer := afterExecutions program (explored + (passed.length + 1)) })
  /-- Nothing fails and the limit lets all be run. -/
  exhausted : (∀ leaf ∈ program.leaves.drop explored, leaf.outcome = none) →
    (∀ most ∈ harness.config.maxIterations, program.leaves.length - explored ≤ most) →
    outcome = (.passed ⟨program.leaves.length - explored, true,
        Explorer.estimate (afterExecutions program program.leaves.length)⟩,
      (program.leaves.drop explored).foldl remember memory,
      { harness with explorer := afterExecutions program program.leaves.length })
  /-- Nothing fails up to the limit, and more is left. -/
  stopped : ∀ most ∈ harness.config.maxIterations, most < program.leaves.length - explored →
    (∀ leaf ∈ (program.leaves.drop explored).take most, leaf.outcome = none) →
    outcome = (.passed ⟨most, false,
        Explorer.estimate (afterExecutions program (explored + most))⟩,
      ((program.leaves.drop explored).take most).foldl remember memory,
      { harness with explorer := afterExecutions program (explored + most) })
  /-- The explorer is complete exactly when every leaf was run, failing ones included. -/
  complete : ∀ run ≤ program.leaves.length,
    (Explorer.isComplete (afterExecutions program run) = true ↔ run = program.leaves.length)

variable {test : Test τ DepthFirst} {program : DecisionProgram (Option Fault)}
variable {remember : τ → Leaf (Option Fault) → τ}

section Executions

variable {explored : Nat} {leaf : Leaf (Option Fault)} {others : List (Leaf (Option Fault))}

private theorem covers_of_drop (left : program.leaves.drop explored = leaf :: others) :
    Covers program (afterExecutions program explored) (leaf :: others) := by
  have within : explored < program.leaves.length := by
    rw [← Nat.not_le, ← List.drop_eq_nil_iff, left]
    exact List.cons_ne_nil leaf others
  rw [← left]
  exact covers_afterExecutions program explored (Nat.le_of_lt within)

private theorem drop_succ_of_drop (left : program.leaves.drop explored = leaf :: others) :
    program.leaves.drop (explored + 1) = others := by
  rw [← List.tail_drop, left]
  rfl

private theorem Plays.executed (plays : Plays test program remember)
    (left : program.leaves.drop explored = leaf :: others) (memory : τ) :
    ∃ arrived, test memory (afterExecutions program explored) =
        (leaf.outcome, remember memory leaf, arrived) ∧
      Explorer.trace arrived = leaf.trace ∧
      ∀ fault, endExecution fault arrived = (fault, afterExecutions program (explored + 1)) := by
  obtain ⟨reached, trace, finished, -⟩ := (covers_of_drop left).execute
  refine ⟨(program.walk (afterExecutions program explored)).2, ?_, trace, ?_⟩
  · apply plays
    exact DecisionProgram.leads_iff_walk.2 (Prod.ext reached rfl)
  · intro fault
    have ended : Explorer.finish (program.walk (afterExecutions program explored)).2 =
        (.ok (), afterExecutions program (explored + 1)) := Prod.ext finished rfl
    rw [endExecution, ended]

variable {limit : Option Nat} {iterations : Nat}

private theorem checkFrom_of_limit {most : Nat} (limited : limit = some most)
    (reached : most ≤ iterations) (budget : Nat) (memory : τ) (explorer : DepthFirst) :
    checkFrom test limit budget iterations memory explorer =
      (.passed ⟨iterations, false, Explorer.estimate explorer⟩, memory, explorer) := by
  subst limited
  unfold checkFrom
  exact if_pos (decide_eq_true reached)

/-- One execution of a check. -/
theorem Plays.checkFrom_succ (plays : Plays test program remember)
    (left : program.leaves.drop explored = leaf :: others)
    (within : ∀ most ∈ limit, iterations < most) (budget : Nat) (memory : τ) :
    checkFrom test limit (budget + 1) iterations memory (afterExecutions program explored) =
      match leaf.outcome with
      | some fault =>
          (.failed ⟨fault, leaf.trace, iterations + 1⟩, remember memory leaf,
            afterExecutions program (explored + 1))
      | none =>
          if others = [] then
            (.passed ⟨iterations + 1, true,
                Explorer.estimate (afterExecutions program (explored + 1))⟩,
              remember memory leaf, afterExecutions program (explored + 1))
          else
            checkFrom test limit budget (iterations + 1) (remember memory leaf)
              (afterExecutions program (explored + 1)) := by
  obtain ⟨arrived, played, trace, ended⟩ := plays.executed left memory
  have unlimited : ¬ limit.any (· ≤ iterations) = true := by
    intro reached
    obtain ⟨most, limited, atLimit⟩ := (Option.any_eq_true _ _).1 reached
    have below := within most limited
    have above := of_decide_eq_true atLimit
    omega
  have rest := (covers_of_drop left).execute.2.2.2
  have complete : Explorer.isComplete (afterExecutions program (explored + 1)) = true ↔
      others = [] := rest.isComplete_iff
  rw [checkFrom, if_neg unlimited]
  dsimp only
  rw [played]
  dsimp only
  rw [ended, trace]
  cases leaf.outcome with
  | some fault => rfl
  | none => simp only [complete]

/-- Executions that pass, with something left after them, take a check on. -/
theorem Plays.checkFrom_append (plays : Plays test program remember) (limit : Option Nat)
    (passed : List (Leaf (Option Fault))) (budget : Nat) (someLeft : others ≠ []) :
    ∀ (explored iterations : Nat) (memory : τ),
      program.leaves.drop explored = passed ++ others →
      (∀ leaf ∈ passed, leaf.outcome = none) →
      (∀ most ∈ limit, iterations + passed.length ≤ most) →
      checkFrom test limit (passed.length + budget) iterations memory
          (afterExecutions program explored) =
        checkFrom test limit budget (iterations + passed.length) (passed.foldl remember memory)
          (afterExecutions program (explored + passed.length)) := by
  induction passed with
  | nil =>
      intro explored iterations memory _ _ _
      rw [List.length_nil, Nat.zero_add]
      rfl
  | cons leaf passed inductionHypothesis =>
      intro explored iterations memory left clean within
      change _ = leaf :: (passed ++ others) at left
      have more : passed ++ others ≠ [] := List.append_ne_nil_of_right_ne_nil _ someLeft
      have below : ∀ most ∈ limit, iterations < most := by
        intro most limited
        have enough := within most limited
        rw [List.length_cons] at enough
        omega
      have onward := inductionHypothesis (explored + 1) (iterations + 1) (remember memory leaf)
        (drop_succ_of_drop left)
        (fun later member => clean later (List.mem_cons_of_mem _ member))
        (by
          intro most limited
          have enough := within most limited
          rw [List.length_cons] at enough
          omega)
      have budgets : (leaf :: passed).length + budget = passed.length + budget + 1 := by
        rw [List.length_cons]
        omega
      rw [budgets, plays.checkFrom_succ left below, clean leaf List.mem_cons_self]
      dsimp only
      rw [if_neg more, onward, List.length_cons, Nat.add_assoc, Nat.add_assoc,
        Nat.add_comm 1 passed.length, List.foldl_cons]

/-- A check whose first executions pass, with something left after them, is decided by those that
follow. -/
theorem Plays.check_append (plays : Plays test program remember) (harness : Harness DepthFirst)
    (known : harness.explorer = afterExecutions program explored)
    {passed : List (Leaf (Option Fault))} (left : program.leaves.drop explored = passed ++ others)
    (someLeft : others ≠ []) (clean : ∀ leaf ∈ passed, leaf.outcome = none)
    (within : ∀ most ∈ harness.config.maxIterations, passed.length ≤ most) {budget : Nat}
    (enough : passed.length ≤ budget) (memory : τ) :
    harness.check budget test memory =
      let later := checkFrom test harness.config.maxIterations (budget - passed.length)
        passed.length (passed.foldl remember memory)
        (afterExecutions program (explored + passed.length))
      (later.1, later.2.1, { harness with explorer := later.2.2 }) := by
  obtain ⟨spare, rfl⟩ := Nat.exists_eq_add_of_le enough
  have onward := plays.checkFrom_append harness.config.maxIterations passed spare someLeft explored
    0 memory left clean (by rwa [Nat.zero_add])
  rw [Nat.zero_add] at onward
  rw [check, known, onward, Nat.add_sub_cancel_left]

end Executions

/-- A check of a deterministic test runs the leaves that are left, in order and once each, until
the first failure, the limit or the end, and says which of these it was. -/
theorem check_verdict (plays : Plays test program remember) (harness : Harness DepthFirst)
    {explored : Nat} (known : harness.explorer = afterExecutions program explored)
    (untried : explored < program.leaves.length) {budget : Nat}
    (enough : program.leaves.length - explored ≤ budget) (memory : τ) :
    Judged program remember harness explored memory (harness.check budget test memory) := by
  have size : (program.leaves.drop explored).length = program.leaves.length - explored :=
    List.length_drop
  constructor
  case failed =>
    intro passed leaf fault others left clean fails within
    have parts := congrArg List.length left
    rw [size, List.length_append, List.length_cons] at parts
    have next : program.leaves.drop (explored + passed.length) = leaf :: others := by
      rw [← List.drop_drop, left, List.drop_left]
    obtain ⟨spare, more⟩ : ∃ spare, budget - passed.length = spare + 1 :=
      Nat.exists_eq_add_of_le' (by omega)
    rw [plays.check_append harness known left (List.cons_ne_nil leaf others) clean
        (fun most limited => Nat.le_of_succ_le (within most limited)) (by omega) memory,
      more, plays.checkFrom_succ next within, fails, List.foldl_append]
    rfl
  case exhausted =>
    intro clean within
    have someLeft : program.leaves.drop explored ≠ [] := by
      rw [← List.length_pos_iff, size]
      omega
    obtain ⟨passed, last, left⟩ := (List.eq_nil_or_concat' _).resolve_left someLeft
    have parts := congrArg List.length left
    rw [size, List.length_append, List.length_singleton] at parts
    rw [left] at clean
    have next : program.leaves.drop (explored + passed.length) = [last] := by
      rw [← List.drop_drop, left, List.drop_left]
    have below : ∀ most ∈ harness.config.maxIterations, passed.length < most := by
      intro most limited
      have allowed := within most limited
      omega
    have everything : explored + passed.length + 1 = program.leaves.length := by omega
    obtain ⟨spare, more⟩ : ∃ spare, budget - passed.length = spare + 1 :=
      Nat.exists_eq_add_of_le' (by omega)
    rw [plays.check_append harness known left (List.cons_ne_nil last [])
        (fun leaf member => clean leaf (List.mem_append_left _ member))
        (fun most limited => Nat.le_of_lt (below most limited)) (by omega) memory,
      more, plays.checkFrom_succ next below,
      clean last (List.mem_append_right _ (List.mem_singleton_self last)), everything, left,
      List.foldl_append, parts]
    rfl
  case stopped =>
    intro most limited more clean
    have someLeft : (program.leaves.drop explored).drop most ≠ [] := by
      rw [← List.length_pos_iff, List.length_drop, size]
      omega
    have taken : ((program.leaves.drop explored).take most).length = most := by
      rw [List.length_take, size]
      omega
    rw [plays.check_append harness known (List.take_append_drop most _).symm someLeft clean
        (fun other also => (taken.trans (Option.mem_unique limited also)).le) (by omega) memory,
      taken, checkFrom_of_limit limited (Nat.le_refl most)]
  case complete =>
    intro run within
    have covers := covers_afterExecutions program run within
    apply covers.isComplete_iff.trans
    rw [List.drop_eq_nil_iff]
    omega

/-- A test with one decision, which fails if the child goes first. -/
def racy : DecisionProgram (Option Fault) :=
  .decision ⟨⟨"main @ start", [.root, .child .root 0]⟩, by decide, by decide⟩ fun position =>
    .ended (if position.val = 0 then none else some .aborted)

theorem verdict_of_racy :
    let remember := fun (labels : List (List String)) (leaf : Leaf (Option Fault)) =>
      labels ++ [leaf.trace.labels]
    let harness : Harness DepthFirst := ⟨.default, .start⟩
    Plays (playing racy remember) racy remember ∧
      harness.explorer = afterExecutions racy 0 ∧ 0 < racy.leaves.length ∧
      racy.leaves.length - 0 ≤ 2 ∧
      (harness.check 2 (playing racy remember) []).1 =
        .failed ⟨.aborted, [⟨"main @ start", ["main", "main.0"], 1⟩], 2⟩ := by
  intro remember harness
  have plays := plays_playing racy remember
  have known : harness.explorer = afterExecutions racy 0 := rfl
  have untried : 0 < racy.leaves.length := by decide
  have judged := check_verdict plays harness known untried (Nat.le_refl 2) []
  have first : ∀ earlier ∈ [(⟨[⟨"main @ start", ["main", "main.0"], 0⟩], none⟩ :
      Leaf (Option Fault))], earlier.outcome = none := by simp
  have failed := judged.failed [⟨[⟨"main @ start", ["main", "main.0"], 0⟩], none⟩]
    ⟨[⟨"main @ start", ["main", "main.0"], 1⟩], some .aborted⟩ .aborted [] rfl first rfl
    (fun most limited => by cases limited)
  exact ⟨plays, known, untried, Nat.le_refl 2, congrArg Prod.fst failed⟩

end ScheduleSearch.Harness
