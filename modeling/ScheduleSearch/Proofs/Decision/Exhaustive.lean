import ScheduleSearch.Proofs.Decision.DepthFirstWalk

/-!
# Depth-first search visits every leaf once

A deterministic program is executed again and again under one depth-first explorer.  `Covers`
is the invariant between two executions: the tree agrees with the program, and the leaves that
remain are those on a given list.  One execution ends in the first leaf of that list and takes
it off, so the leaves are visited from left to right, each once, and the search is complete as
soon as none remains.
-/

namespace ScheduleSearch

/-- What is seen of one execution of a program. -/
structure Execution (ω σ : Type) where
  /-- Where the execution ended. -/
  leaf : Option (Leaf ω)
  /-- The decisions that the explorer reports before it ends the execution. -/
  trace : Trace
  finished : Except Fault Unit
  /-- The explorer afterwards. -/
  explorer : σ

/-- Walks a program once and ends the execution. -/
def DecisionProgram.execute {ω σ : Type} [Explorer σ] (program : DecisionProgram ω)
    (explorer : σ) : Execution ω σ :=
  let (leaf, arrived) := program.walk explorer
  let (finished, rewound) := Explorer.finish arrived
  ⟨leaf, Explorer.trace arrived, finished, rewound⟩

namespace DepthFirst

open DecisionTree

variable {ω : Type} {program : DecisionProgram ω} {explorer : DepthFirst}

/-- The explorer after a number of executions of a program. -/
def afterExecutions (program : DecisionProgram ω) : Nat → DepthFirst
  | 0 => start
  | count + 1 => (program.execute (afterExecutions program count)).explorer

/-- Between two executions: `rest` lists the leaves that no execution has reached. -/
structure Covers (program : DecisionProgram ω) (explorer : DepthFirst) (rest : List (Leaf ω)) :
    Prop where
  linked : Linked explorer.tree
  settled : Settled explorer.tree
  steady : explorer.deferred = none
  rewound : explorer.current = DecisionTree.root
  recorded : explorer.tree.Matches program DecisionTree.root
  remaining : explorer.tree.remaining program DecisionTree.root = rest
  size : explorer.tree.recorded program DecisionTree.root = explorer.tree.size

theorem covers_start (program : DecisionProgram ω) : Covers program start program.leaves where
  linked := linked_start
  settled := settled_start
  steady := rfl
  rewound := rfl
  recorded := matches_of_untested program rfl
  remaining := remaining_of_untested program rfl
  size := recorded_of_untested program rfl

theorem Covers.isComplete_iff {rest : List (Leaf ω)} (covers : Covers program explorer rest) :
    explorer.tree.isComplete = true ↔ rest = [] := by
  rw [← covers.remaining]
  exact isComplete_iff_remaining covers.settled program covers.recorded

/-- Once no leaf remains the tree has one node for each node of the program. -/
theorem Covers.size_eq (covers : Covers program explorer []) :
    explorer.tree.size = program.nodeCount := by
  rw [← covers.size]
  exact recorded_of_remaining_nil program covers.remaining

private theorem finish_eq {tree : DecisionTree} {place : Nat} (runs : Nat) (linked : Linked tree)
    (settled : Settled tree) (known : place < tree.size)
    (untested : (tree.node place).status = .untested) :
    ∃ after, Ended tree after place ⟨endOfExecution, []⟩ ∧
      finish ⟨tree, place, none, runs⟩ =
        (.ok (), ⟨after, DecisionTree.root, none, runs + 1⟩) := by
  obtain ⟨after, visit, ended⟩ := visit_end linked settled known untested endOfExecution
  refine ⟨after, ended, ?_⟩
  simp only [finish, visit]
  rfl

/-- One execution ends in the first leaf that remains, and takes it off the list. -/
theorem Covers.execute {leaf : Leaf ω} {rest : List (Leaf ω)}
    (covers : Covers program explorer (leaf :: rest)) :
    (program.execute explorer).leaf = some leaf ∧
      (program.execute explorer).trace = leaf.trace ∧
      (program.execute explorer).finished = .ok () ∧
      Covers program (program.execute explorer).explorer rest := by
  have known : explorer.current < explorer.tree.size := by
    rw [covers.rewound]
    exact covers.linked.inhabited
  have isOpen : (explorer.tree.node explorer.current).isComplete = false := by
    rw [covers.rewound, ← Bool.not_eq_true]
    intro complete
    have none := covers.isComplete_iff.1 complete
    cases none
  obtain ⟨reached, grown, place, walked, descent⟩ :=
    walk_descends program explorer covers.linked covers.settled covers.steady known
      (by rw [covers.rewound]; exact covers.recorded) isOpen
  obtain ⟨after, ended, finished⟩ :=
    finish_eq explorer.runs descent.linked descent.settled descent.known descent.untested
  rw [covers.steady] at walked
  rw [covers.rewound] at descent
  obtain ⟨recorded, taken, counted⟩ := descent.taken after ended
  rw [covers.remaining] at taken
  obtain ⟨rfl, rfl⟩ := List.cons.inj taken
  have executed : program.execute explorer =
      ⟨some leaf, grown.decisionsTo place, .ok (),
        ⟨after, DecisionTree.root, none, explorer.runs + 1⟩⟩ := by
    simp only [DecisionProgram.execute, walked]
    simp only [Explorer.finish, Explorer.trace, finished]
    rfl
  rw [executed]
  refine ⟨rfl, ?_, rfl, ?_⟩
  · rw [descent.decisions, decisionsTo_root descent.linked]
    rfl
  · refine ⟨ended.linked, ended.settled, rfl, rfl, recorded, rfl, ?_⟩
    have before := covers.size
    have added := descent.recorded
    have same := ended.size
    rw [counted]
    change _ = after.size
    omega

/-- After a number of executions the leaves from there on remain. -/
theorem covers_afterExecutions (program : DecisionProgram ω) :
    ∀ count, count ≤ program.leaves.length →
      Covers program (afterExecutions program count) (program.leaves.drop count) := by
  intro count
  induction count with
  | zero =>
      intro _
      exact covers_start program
  | succ count inductionHypothesis =>
      intro within
      have covers := inductionHypothesis (Nat.le_of_succ_le within)
      rw [List.drop_eq_getElem_cons within] at covers
      exact covers.execute.2.2.2

/-- Depth-first search ends its executions in the leaves of the program from left to right,
one after the other, without a fault; it is complete after the last of them and not before,
and then its tree has a node for each node of the program. -/
theorem executions_visit_leaves (program : DecisionProgram ω) :
    (program.leaves.map Leaf.trace).Nodup ∧
      (∀ index (within : index < program.leaves.length),
        let execution := program.execute (afterExecutions program index)
        execution.leaf = some program.leaves[index] ∧
          execution.trace = program.leaves[index].trace ∧
          execution.finished = .ok () ∧
          (Explorer.isComplete execution.explorer = true ↔
            index + 1 = program.leaves.length)) ∧
      (afterExecutions program program.leaves.length).tree.size = program.nodeCount := by
  refine ⟨program.leaves_nodup_traces, ?_, ?_⟩
  · intro index within
    have covers := covers_afterExecutions program index (Nat.le_of_lt within)
    rw [List.drop_eq_getElem_cons within] at covers
    obtain ⟨leaf, trace, finished, rest⟩ := covers.execute
    refine ⟨leaf, trace, finished, ?_⟩
    have complete := rest.isComplete_iff
    rw [List.drop_eq_nil_iff] at complete
    apply complete.trans
    omega
  · have covers := covers_afterExecutions program _ (Nat.le_refl _)
    rw [List.drop_length] at covers
    exact covers.size_eq

end DepthFirst

end ScheduleSearch
