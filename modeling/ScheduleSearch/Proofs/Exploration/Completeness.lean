import ScheduleSearch.Exploration.Search
import ScheduleSearch.Proofs.Decision.Obedience
import ScheduleSearch.Proofs.Decision.Retrace
import ScheduleSearch.Proofs.Exploration.ProgramTree

/-!
# A search finds all that a program can do

One depth-first explorer steers run after run of a program of events.  Its runs are the leaves of
the decision tree of the program, from left to right, so the search is complete after finitely
many of them.  A run under any source that answers with offered threads ends in one of these
leaves too, and every leaf is where some such source leads.
-/

namespace ScheduleSearch

open DecisionSource

/-- Runs that show all that a program can do, and nothing that it cannot. -/
structure Exhausts (program : EventProgram) (maxDecisions : Nat) (runs : List ExploredRun) :
    Prop where
  /-- In every run all threads reach their exit, or the execution fails with a fault. -/
  concluded : ∀ run ∈ runs, run.ending.Concluded
  /-- The run under any obedient source is the one listed run that makes the same choices. -/
  found : ∀ {τ : Type} [DecisionSource τ] (source : τ), Obedient source →
    let log := (program.run (Logged.ofSource source) maxDecisions).final.source.log
    ∃ index, ∃ within : index < runs.length,
      runs[index].history = (program.run source maxDecisions).history ∧
      runs[index].ending = (program.run source maxDecisions).ending ∧
      runs[index].trace = log ∧
      ∀ other, ∀ listed : other < runs.length,
        runs[other].trace.choices = log.choices → other = index
  /-- Every listed run is the run under some obedient source. -/
  reachable : ∀ run ∈ runs, ∃ source : Script, Obedient source ∧
    run.history = (program.run source maxDecisions).history ∧
    run.ending = (program.run source maxDecisions).ending ∧
    run.trace = (program.run (Logged.ofSource source) maxDecisions).final.source.log

namespace EventProgram

open DepthFirst

/-- A leaf as a search shows it. -/
def explored (leaf : Leaf (History × Ending)) : ExploredRun where
  history := leaf.outcome.1
  ending := leaf.outcome.2
  trace := leaf.trace

variable (program : EventProgram) (maxDecisions : Nat)

private theorem exploreOnce_of_covers {explorer : DepthFirst} {leaf : Leaf (History × Ending)}
    {rest : List (Leaf (History × Ending))}
    (covers : Covers (program.tree maxDecisions) explorer (leaf :: rest)) :
    ∃ rewound, program.exploreOnce maxDecisions explorer = (explored leaf, .ok (), rewound) ∧
      Covers (program.tree maxDecisions) rewound rest := by
  obtain ⟨arrived, rewound, leads, trace, finished, remaining⟩ := covers.leads
  obtain ⟨history, ending, source⟩ := program.run_of_leads maxDecisions leads
  refine ⟨rewound, ?_, remaining⟩
  unfold exploreOnce
  dsimp only
  rw [history, ending, source, trace, finished]
  rfl

/-- A search takes the leaves that remain one after the other. -/
theorem explore_of_covers (budget : Nat) :
    ∀ {explorer : DepthFirst} {rest : List (Leaf (History × Ending))}
      (lastFinish : Option (Except Fault Unit)),
      Covers (program.tree maxDecisions) explorer rest →
        let search := program.explore maxDecisions budget explorer lastFinish
        search.runs = (rest.take budget).map explored ∧
          Covers (program.tree maxDecisions) search.explorer (rest.drop budget) ∧
          search.lastFinish = if budget = 0 ∨ rest = [] then lastFinish else some (.ok ()) := by
  induction budget with
  | zero =>
      intro explorer rest lastFinish covers
      exact ⟨rfl, covers, rfl⟩
  | succ budget inductionHypothesis =>
      intro explorer rest lastFinish covers
      cases rest with
      | nil =>
          have complete : Explorer.isComplete explorer = true := covers.isComplete_iff.2 rfl
          rw [explore, if_pos complete]
          exact ⟨rfl, covers, rfl⟩
      | cons leaf rest =>
          have incomplete : ¬ Explorer.isComplete explorer = true := fun complete =>
            List.cons_ne_nil _ _ (covers.isComplete_iff.1 complete)
          obtain ⟨rewound, once, remaining⟩ :=
            program.exploreOnce_of_covers maxDecisions covers
          obtain ⟨runs, covered, finish⟩ := inductionHypothesis (some (.ok ())) remaining
          rw [explore, if_neg incomplete, once]
          refine ⟨?_, covered, ?_⟩
          · dsimp only
            rw [runs]
            rfl
          · dsimp only
            rw [finish, ite_self]
            rfl

/-- The run under a source that leads to a leaf is the run that is shown of the leaf. -/
theorem explored_of_leads {τ : Type} [DecisionSource τ] {source after : τ}
    {leaf : Leaf (History × Ending)}
    (leads : (program.tree maxDecisions).Leads source leaf after) :
    (explored leaf).history = (program.run source maxDecisions).history ∧
      (explored leaf).ending = (program.run source maxDecisions).ending ∧
      (explored leaf).trace =
        (program.run (Logged.ofSource source) maxDecisions).final.source.log := by
  obtain ⟨history, ending, -⟩ := program.run_of_leads maxDecisions leads
  obtain ⟨-, -, logged⟩ := program.run_of_leads maxDecisions (leads.logged [])
  exact ⟨history.symm, ending.symm, (congrArg Logged.log logged).symm⟩

/-- Every leaf is shown by the run under a script of the decisions on the way there. -/
theorem explored_of_mem_leaves {leaf : Leaf (History × Ending)}
    (member : leaf ∈ (program.tree maxDecisions).leaves) :
    ∃ source : Script, Obedient source ∧
      (explored leaf).history = (program.run source maxDecisions).history ∧
      (explored leaf).ending = (program.run source maxDecisions).ending ∧
      (explored leaf).trace =
        (program.run (Logged.ofSource source) maxDecisions).final.source.log := by
  obtain ⟨after, leads⟩ := (program.tree maxDecisions).leads_ofTrace [] member
  exact ⟨Script.ofTrace leaf.trace, Script.obedient_ofTrace leaf.trace,
    program.explored_of_leads maxDecisions leads⟩

/-- The leaves of the tree of a program show all that it can do. -/
theorem exhausts_leaves :
    Exhausts program maxDecisions ((program.tree maxDecisions).leaves.map explored) := by
  constructor
  case concluded =>
    intro run listed
    obtain ⟨leaf, member, rfl⟩ := List.mem_map.1 listed
    obtain ⟨source, -, -, ending, -⟩ := program.explored_of_mem_leaves maxDecisions member
    rw [ending]
    exact program.concluded_run source maxDecisions
  case found =>
    intro τ _ source obedient
    obtain ⟨leaf, after, leads⟩ := (program.tree maxDecisions).exists_leads obedient
    obtain ⟨index, within, here⟩ := List.getElem_of_mem leads.mem_leaves
    obtain ⟨history, ending, trace⟩ := program.explored_of_leads maxDecisions leads
    have listed : index < ((program.tree maxDecisions).leaves.map explored).length := by
      rw [List.length_map]
      exact within
    refine ⟨index, listed, ?_, ?_, ?_, ?_⟩
    · rw [List.getElem_map, here]
      exact history
    · rw [List.getElem_map, here]
      exact ending
    · rw [List.getElem_map, here]
      exact trace
    · intro other otherListed equal
      let choices := (program.tree maxDecisions).leaves.map fun leaf => leaf.trace.choices
      have distinct : choices.Nodup := (program.tree maxDecisions).leaves_nodup_choices
      have otherWithin : other < choices.length := by
        rw [List.length_map] at otherListed ⊢
        exact otherListed
      have thisWithin : index < choices.length := by
        rw [List.length_map]
        exact within
      have alike : choices[other] = choices[index] := by
        rw [List.getElem_map, ← trace, ← here] at equal
        rw [List.getElem_map, List.getElem_map]
        exact equal
      exact distinct.getElem_inj_iff.1 alike
  case reachable =>
    intro run listed
    obtain ⟨leaf, member, rfl⟩ := List.mem_map.1 listed
    exact program.explored_of_mem_leaves maxDecisions member

/-- A search that starts from nothing shows the leaves from left to right, is complete when all of
them were shown, and no run ends with a fault of the explorer. -/
theorem explore_leaves (budget : Nat) :
    let runs := (program.tree maxDecisions).leaves.map explored
    let search := program.explore maxDecisions budget DepthFirst.start none
    search.runs = runs.take budget ∧
      (Explorer.isComplete search.explorer = true ↔ runs.length ≤ budget) ∧
      (0 < budget → search.lastFinish = some (.ok ())) := by
  obtain ⟨runs, covers, finish⟩ := program.explore_of_covers maxDecisions budget none
    (covers_start (program.tree maxDecisions))
  refine ⟨?_, ?_, ?_⟩
  · rw [runs, List.map_take]
  · have complete := covers.isComplete_iff
    rw [List.drop_eq_nil_iff] at complete
    rw [List.length_map]
    exact complete
  · intro positive
    rw [finish]
    apply if_neg
    rintro (none | empty)
    · omega
    · exact (program.tree maxDecisions).leaves_ne_nil empty

/-- A search of a program of events is complete after finitely many runs, each of which ends
without a fault of the explorer, and its runs show all that the program can do. -/
theorem explore_exhausts :
    ∃ runs, Exhausts program maxDecisions runs ∧ ∀ budget,
      let search := program.explore maxDecisions budget DepthFirst.start none
      search.runs = runs.take budget ∧
        (Explorer.isComplete search.explorer = true ↔ runs.length ≤ budget) ∧
        (0 < budget → search.lastFinish = some (.ok ())) := by
  exact ⟨_, program.exhausts_leaves maxDecisions, program.explore_leaves maxDecisions⟩

end EventProgram

end ScheduleSearch
