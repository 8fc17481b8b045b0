import ScheduleSearch.Decision.Replay
import ScheduleSearch.Proofs.Decision.Exhaustive
import ScheduleSearch.Proofs.Decision.Sequence

/-!
# Executions that are made once more

A program can be executed when nothing is left to try: the explorer then takes the first way on
everywhere, and its tree stays what it is.  So an execution of a program ends in one of its leaves
without a fault at every stage of the search, with the decisions of this leaf as its trace.  A
replay of these decisions leads to the same leaf.
-/

namespace ScheduleSearch

namespace DepthFirst

open DecisionTree

variable {ω : Type}

private theorem decide_of_complete (explorer : DepthFirst) (settled : Settled explorer.tree)
    (steady : explorer.deferred = none) {choice : Choice}
    (tested : (explorer.tree.node explorer.current).status ≠ .untested)
    (question : (explorer.tree.node explorer.current).question = some choice.toQuestion)
    (width : (explorer.tree.node explorer.current).children.length = choice.options.length)
    (complete : (explorer.tree.node explorer.current).isComplete = true)
    (within : 0 < choice.options.length) :
    explorer.decide choice.toQuestion =
      (.ok choice.options[0],
        { explorer with current := explorer.tree.childAt explorer.current 0 }) := by
  have children : (explorer.tree.node explorer.current).children ≠ [] := by
    rw [← List.length_pos_iff, width]
    exact within
  have visit : explorer.tree.visit explorer.current choice.toQuestion = .ok explorer.tree := by
    simp [DecisionTree.visit, tested, question, Question.same_refl]
  have way : wayOn explorer.tree explorer.current =
      some (0, explorer.tree.childAt explorer.current 0) := by
    obtain ⟨first, rest, shape⟩ := List.exists_cons_of_ne_nil children
    rw [wayOn, firstOpenChild_eq_none settled children complete, childAt, shape]
    rfl
  have advanced : explorer.advance choice.toQuestion =
      .ok (choice.options[0],
        { explorer with current := explorer.tree.childAt explorer.current 0 }) := by
    simp only [advance, visit, way, bind, Except.bind, List.getElem?_eq_getElem within]
    rfl
  rw [decide]
  split
  next none => exact absurd none choice.offered
  next => simp [steady, advanced]

/-- Where nothing is left to try, an execution arrives at a place where one has ended before. -/
theorem walk_of_complete (program : DecisionProgram ω) :
    ∀ explorer : DepthFirst, Linked explorer.tree → Settled explorer.tree →
      explorer.deferred = none → explorer.tree.Matches program explorer.current →
      (explorer.tree.node explorer.current).isComplete = true →
      ∃ leaf place,
        program.walk explorer = (some leaf, { explorer with current := place }) ∧
        (explorer.tree.node place).status = .completelyTested ∧
        (explorer.tree.node place).question = some ⟨endOfExecution, []⟩ ∧
        explorer.tree.decisionsTo place =
          explorer.tree.decisionsTo explorer.current ++ leaf.trace := by
  induction program with
  | ended outcome =>
      intro explorer _ _ _ recordedHere complete
      rcases recordedHere with untested | ⟨status, -, question⟩
      · rw [Node.isComplete, untested] at complete
        cases complete
      · exact ⟨⟨[], outcome⟩, explorer.current, rfl, status, question, by simp⟩
  | decision choice below inductionHypothesis =>
      intro explorer linked settled steady recordedHere complete
      rcases recordedHere with untested | ⟨tested, question, width, children⟩
      · rw [Node.isComplete, untested] at complete
        cases complete
      · have wide : 0 < choice.options.length := List.length_pos_iff.2 choice.offered
        have listed : explorer.tree.childAt explorer.current 0 ∈
            (explorer.tree.node explorer.current).children :=
          childAt_mem (by rw [width]; exact wide)
        have childComplete := childrenComplete_iff.1
          ((settled _ (List.ne_nil_of_mem listed)).1 complete) _ listed
        obtain ⟨leaf, place, walked, status, ended, decisions⟩ :=
          inductionHypothesis ⟨0, wide⟩
            { explorer with current := explorer.tree.childAt explorer.current 0 }
            linked settled steady (children ⟨0, wide⟩) childComplete
        refine ⟨leaf.after (choice.step ⟨0, wide⟩), place, ?_, status, ended, ?_⟩
        · have answered : DecisionSource.decide explorer choice.toQuestion =
              explorer.decide choice.toQuestion := rfl
          have found : choice.position? choice.options[0] = some ⟨0, wide⟩ :=
            choice.position?_of_same ((choice.same_at_iff ⟨0, wide⟩ ⟨0, wide⟩).2 rfl)
          rw [DecisionProgram.walk, answered, explorer.decide_of_complete settled steady tested
            question width complete wide]
          dsimp only
          rw [found]
          dsimp only
          rw [walked]
          rfl
        · have step := decisionsTo_childAt linked question width ⟨0, wide⟩
          rw [decisions, step, List.append_assoc]
          rfl

private theorem finish_of_complete {explorer : DepthFirst} (steady : explorer.deferred = none)
    (complete : (explorer.tree.node explorer.current).status = .completelyTested)
    (ended : (explorer.tree.node explorer.current).question = some ⟨endOfExecution, []⟩) :
    explorer.finish =
      (.ok (), ⟨explorer.tree, DecisionTree.root, none, explorer.runs + 1⟩) := by
  have visit : explorer.tree.visit explorer.current ⟨endOfExecution, []⟩ = .ok explorer.tree := by
    simp [DecisionTree.visit, complete, ended, Question.same_refl]
  rw [finish, steady, visit]
  rfl

/-- An execution that is steered to the first leaf that remains, and its end. -/
theorem Covers.leads {program : DecisionProgram ω} {explorer : DepthFirst} {leaf : Leaf ω}
    {rest : List (Leaf ω)} (covers : Covers program explorer (leaf :: rest)) :
    ∃ arrived rewound : DepthFirst, program.Leads explorer leaf arrived ∧
      Explorer.trace arrived = leaf.trace ∧ Explorer.finish arrived = (.ok (), rewound) ∧
      Covers program rewound rest := by
  obtain ⟨reached, trace, finished, remaining⟩ := covers.execute
  exact ⟨(program.walk explorer).2, (Explorer.finish (program.walk explorer).2).2,
    DecisionProgram.leads_iff_walk.2 (Prod.ext reached rfl), trace, Prod.ext finished rfl,
    remaining⟩

/-- An execution of a program at any stage of its search ends in a leaf without a fault, and takes
it off the leaves that remain. -/
theorem Covers.leads_anyway {program : DecisionProgram ω} {explorer : DepthFirst}
    {rest : List (Leaf ω)} (covers : Covers program explorer rest) :
    ∃ leaf arrived rewound, program.Leads explorer leaf arrived ∧
      Explorer.trace arrived = leaf.trace ∧ Explorer.finish arrived = (.ok (), rewound) ∧
      Covers program rewound rest.tail := by
  cases rest with
  | cons leaf rest =>
      exact ⟨leaf, covers.leads⟩
  | nil =>
      obtain ⟨linked, settled, steady, rewound, recorded, remaining, size⟩ := covers
      have complete : (explorer.tree.node explorer.current).isComplete = true := by
        rw [rewound]
        exact (isComplete_iff_remaining settled program recorded).2 remaining
      obtain ⟨leaf, place, walked, status, ended, decisions⟩ :=
        walk_of_complete program explorer linked settled steady
          (by rw [rewound]; exact recorded) complete
      refine ⟨leaf, { explorer with current := place },
        ⟨explorer.tree, DecisionTree.root, none, explorer.runs + 1⟩,
        DecisionProgram.leads_iff_walk.2 walked, ?_, finish_of_complete steady status ended,
        linked, settled, rfl, rfl, recorded, remaining, size⟩
      rw [rewound, decisionsTo_root linked] at decisions
      exact decisions

end DepthFirst

namespace Replay

private theorem decide_of_recorded (choice : Choice) (position : Fin choice.options.length)
    (before after : Trace) :
    decide ⟨before ++ choice.step position :: after, before.length, false, none⟩
        choice.toQuestion =
      (.ok (choice.options.get position),
        ⟨before ++ choice.step position :: after, before.length + 1, false, none⟩) := by
  have answer : (choice.step position).answer choice.toQuestion =
      .ok (choice.options.get position) := by
    simp [TraceStep.answer, Choice.step]
  have follow : follow ⟨before ++ choice.step position :: after, before.length, false, none⟩
      choice.toQuestion = .ok (choice.options.get position) := by
    rw [Replay.follow, List.getElem?_append_right (Nat.le_refl _), Nat.sub_self]
    exact answer
  rw [decide]
  split
  next none => exact absurd none choice.offered
  next =>
    rw [follow]
    rfl

/-- The replay of the decisions on the way to a leaf leads there, and has followed all of them. -/
theorem leads_leaf {ω : Type} (program : DecisionProgram ω) :
    ∀ {leaf : Leaf ω} (before : Trace), leaf ∈ program.leaves →
      program.Leads (⟨before ++ leaf.trace, before.length, false, none⟩ : Replay) leaf
        ⟨before ++ leaf.trace, before.length + leaf.trace.length, false, none⟩ := by
  induction program with
  | ended outcome =>
      intro leaf before member
      obtain rfl := List.mem_singleton.1 member
      exact .ended outcome _
  | decision choice below inductionHypothesis =>
      intro leaf before member
      obtain ⟨position, -, listed⟩ := List.mem_flatMap.1 member
      obtain ⟨rest, restMember, rfl⟩ := List.mem_map.1 listed
      have onward := inductionHypothesis position (before ++ [choice.step position]) restMember
      rw [List.append_assoc, List.length_append, List.length_singleton, Nat.add_assoc,
        Nat.add_comm 1] at onward
      exact .decision (decide_of_recorded choice position before rest.trace)
        ((choice.same_at_iff position position).2 rfl) onward

end Replay

end ScheduleSearch
