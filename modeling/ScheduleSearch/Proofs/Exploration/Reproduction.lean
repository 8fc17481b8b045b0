import ScheduleSearch.Proofs.Exploration.Completeness

/-!
# Recorded runs are reproduced

Whatever the explorer has tried before, the trace it reports at the end of a run of a program
lists the questions of this run with their answers, and a replay of the trace makes the same run
again.  Both are read off the leaf of the decision tree in which the run ends: the trace is that
of the leaf, and the replay of a leaf leads to the leaf.
-/

namespace ScheduleSearch.EventProgram

open DepthFirst

/-- The explorer after a number of runs of a program, be there anything left to try or not. -/
def explorerAfter (program : EventProgram) (maxDecisions : Nat) : Nat → DepthFirst
  | 0 => DepthFirst.start
  | runs + 1 => (program.exploreOnce maxDecisions (program.explorerAfter maxDecisions runs)).2.2

variable (program : EventProgram) (maxDecisions : Nat)

private theorem covers_explorerAfter (runs : Nat) :
    Covers (program.tree maxDecisions) (program.explorerAfter maxDecisions runs)
      ((program.tree maxDecisions).leaves.drop runs) := by
  induction runs with
  | zero => exact covers_start (program.tree maxDecisions)
  | succ runs inductionHypothesis =>
      obtain ⟨leaf, arrived, rewound, leads, -, finished, remaining⟩ :=
        inductionHypothesis.leads_anyway
      obtain ⟨-, -, source⟩ := program.run_of_leads maxDecisions leads
      have next : program.explorerAfter maxDecisions (runs + 1) = rewound := by
        rw [explorerAfter, exploreOnce]
        dsimp only
        rw [source, finished]
      rw [next, ← List.tail_drop]
      exact remaining

/-- The trace of a run lists what the explorer was asked in this run and what it answered, and
the replay of the trace applies the same events, ends in the same way, follows the whole trace
and reports no fault. -/
theorem replay_reproduces (program : EventProgram) (maxDecisions runs : Nat) :
    let explorer := program.explorerAfter maxDecisions runs
    let recorded := program.run explorer maxDecisions
    let trace := Explorer.trace recorded.final.source
    let watched := program.run (Logged.ofSource explorer) maxDecisions
    let replayed := program.run (Replay.ofTrace trace) maxDecisions
    (watched.history = recorded.history ∧ watched.ending = recorded.ending ∧
      watched.final.source = ⟨recorded.final.source, trace⟩) ∧
    replayed.history = recorded.history ∧ replayed.ending = recorded.ending ∧
      Explorer.trace replayed.final.source = trace ∧
      (Explorer.finish replayed.final.source).1 = .ok () := by
  obtain ⟨leaf, arrived, -, leads, reported, -, -⟩ :=
    (program.covers_explorerAfter maxDecisions runs).leads_anyway
  obtain ⟨history, ending, source⟩ := program.run_of_leads maxDecisions leads
  intro explorer recorded trace watched replayed
  have here : trace = leaf.trace := (congrArg Explorer.trace source).trans reported
  have again := Replay.leads_leaf (program.tree maxDecisions) [] leads.mem_leaves
  rw [List.nil_append, ← here] at again
  obtain ⟨watchedHistory, watchedEnding, watchedSource⟩ :=
    program.run_of_leads maxDecisions (leads.logged [])
  obtain ⟨replayedHistory, replayedEnding, replayedSource⟩ :=
    program.run_of_leads maxDecisions again
  refine ⟨⟨watchedHistory.trans history.symm, watchedEnding.trans ending.symm, ?_⟩,
    replayedHistory.trans history.symm, replayedEnding.trans ending.symm, ?_, ?_⟩
  · rw [List.nil_append, ← source, ← here] at watchedSource
    exact watchedSource
  · apply (congrArg Explorer.trace replayedSource).trans
    rw [Explorer.trace, here]
    exact List.take_of_length_le (by simp)
  · apply (congrArg (fun source : Replay => (Explorer.finish source).1) replayedSource).trans
    have followed : ¬ ([] : Trace).length + trace.length < trace.length := by simp
    simp only [Explorer.finish, Replay.finish, if_neg followed]

end ScheduleSearch.EventProgram
