import Mathlib.Data.List.GetD
import ScheduleSearch.Decision.DepthFirst
import ScheduleSearch.Proofs.Decision.Completion
import ScheduleSearch.Proofs.Decision.Program

/-!
# How much of a program a decision tree covers

`Matches tree program id` says that what the tree has recorded from node `id` downwards agrees
with the program: every node was met by the decision, or the end, that the program has at its
place, or by nothing yet.  `remaining` lists the leaves of the program that no execution has
reached, from left to right, and `recorded` counts the nodes of the tree that belong to it.

Both depend on the subtree of `id` alone (`SameRecord`), and in a settled tree a node is
completely tested exactly if no leaf remains below it.
-/

namespace ScheduleSearch.DecisionTree

variable {ω : Type}

/-- The child of a node at a position. -/
def childAt (tree : DecisionTree) (id position : Nat) : Nat :=
  (tree.node id).children.getD position root

/-- What is recorded from a node downwards agrees with a program. -/
def Matches (tree : DecisionTree) : DecisionProgram ω → Nat → Prop
  | .ended _, id =>
      (tree.node id).status = .untested ∨
        (tree.node id).status = .completelyTested ∧ (tree.node id).children = [] ∧
          (tree.node id).question = some ⟨endOfExecution, []⟩
  | .decision choice below, id =>
      (tree.node id).status = .untested ∨
        (tree.node id).status ≠ .untested ∧
          (tree.node id).question = some choice.toQuestion ∧
          (tree.node id).children.length = choice.options.length ∧
          ∀ position, tree.Matches (below position) (tree.childAt id position)

/-- The leaves of a program that no execution has reached, from left to right. -/
def remaining (tree : DecisionTree) : DecisionProgram ω → Nat → List (Leaf ω)
  | .ended outcome, id =>
      if (tree.node id).status = .untested then [⟨[], outcome⟩] else []
  | .decision choice below, id =>
      if (tree.node id).status = .untested then (DecisionProgram.decision choice below).leaves
      else
        (List.finRange choice.options.length).flatMap fun position =>
          (tree.remaining (below position) (tree.childAt id position)).map
            (Leaf.after (choice.step position))

/-- The number of nodes that are recorded for a program. -/
def recorded (tree : DecisionTree) : DecisionProgram ω → Nat → Nat
  | .ended _, _ => 1
  | .decision choice below, id =>
      if (tree.node id).status = .untested then 1
      else
        1 + ((List.finRange choice.options.length).map fun position =>
          tree.recorded (below position) (tree.childAt id position)).sum

variable {tree after : DecisionTree}

theorem childAt_mem {id position : Nat} (within : position < (tree.node id).children.length) :
    tree.childAt id position ∈ (tree.node id).children := by
  rw [childAt, List.getD_eq_getElem _ _ within]
  exact List.getElem_mem within

theorem remaining_of_untested (program : DecisionProgram ω) {id : Nat}
    (untested : (tree.node id).status = .untested) :
    tree.remaining program id = program.leaves := by
  cases program with
  | ended outcome => rw [remaining, if_pos untested, DecisionProgram.leaves]
  | decision choice below => rw [remaining, if_pos untested]

theorem recorded_of_untested (program : DecisionProgram ω) {id : Nat}
    (untested : (tree.node id).status = .untested) : tree.recorded program id = 1 := by
  cases program with
  | ended outcome => rw [recorded]
  | decision choice below => rw [recorded, if_pos untested]

theorem matches_of_untested (program : DecisionProgram ω) {id : Nat}
    (untested : (tree.node id).status = .untested) : tree.Matches program id := by
  cases program with
  | ended outcome => exact Or.inl untested
  | decision choice below => exact Or.inl untested

/-- Two trees record the same at a node, up to the completion of a node with children. -/
structure SameRecord (tree after : DecisionTree) (id : Nat) : Prop where
  question : (after.node id).question = (tree.node id).question
  children : (after.node id).children = (tree.node id).children
  status : (after.node id).status = (tree.node id).status ∨
    (after.node id).status = .completelyTested ∧ (tree.node id).children ≠ []

theorem SameRecord.of_eq {id : Nat} (same : after.node id = tree.node id) :
    SameRecord tree after id :=
  ⟨by rw [same], by rw [same], Or.inl (by rw [same])⟩

theorem SameRecord.untested_iff {id : Nat} (linked : Linked tree)
    (same : SameRecord tree after id) :
    (after.node id).status = .untested ↔ (tree.node id).status = .untested := by
  rcases same.status with equal | ⟨complete, children⟩
  · rw [equal]
  · rw [complete]
    refine ⟨fun impossible => NodeStatus.noConfusion impossible, fun untested => ?_⟩
    exact absurd (linked.untested untested) children

/-- The record of a program is read off the subtree of its node. -/
theorem record_congr (linked : Linked tree) (program : DecisionProgram ω) :
    ∀ {id : Nat}, tree.Matches program id →
      (∀ other, Under tree id other → SameRecord tree after other) →
      after.Matches program id ∧ after.remaining program id = tree.remaining program id ∧
        after.recorded program id = tree.recorded program id := by
  induction program with
  | ended outcome =>
      intro id recordedHere same
      have here := same id .here
      have untestedIff := here.untested_iff linked
      refine ⟨?_, ?_, rfl⟩
      · rcases recordedHere with untested | ⟨complete, childless, question⟩
        · exact Or.inl (untestedIff.2 untested)
        · refine Or.inr ⟨?_, here.children.trans childless, here.question.trans question⟩
          rcases here.status with equal | ⟨completed, -⟩
          · exact equal.trans complete
          · exact completed
      · simp only [remaining, untestedIff]
  | decision choice below inductionHypothesis =>
      intro id recordedHere same
      have here := same id .here
      have untestedIff := here.untested_iff linked
      have childEq : ∀ position, after.childAt id position = tree.childAt id position := by
        intro position
        rw [childAt, childAt, here.children]
      rcases recordedHere with untested | ⟨tested, question, width, children⟩
      · have untestedAfter := untestedIff.2 untested
        refine ⟨Or.inl untestedAfter, ?_, ?_⟩
        · rw [remaining_of_untested _ untested, remaining_of_untested _ untestedAfter]
        · rw [recorded_of_untested _ untested, recorded_of_untested _ untestedAfter]
      · have testedAfter : (after.node id).status ≠ .untested := fun untested =>
          tested (untestedIff.1 untested)
        have each : ∀ position : Fin choice.options.length, _ := fun position =>
          inductionHypothesis position (children position) fun other under =>
            same other <| under.of_child <|
              (linked.childOf (childAt_mem (by rw [width]; exact position.isLt))).2.2
        refine ⟨Or.inr ⟨testedAfter, here.question.trans question, ?_, ?_⟩, ?_, ?_⟩
        · rw [here.children, width]
        · intro position
          rw [childEq]
          exact (each position).1
        · simp only [remaining, if_neg tested, if_neg testedAfter, childEq]
          congr 1
          funext position
          rw [(each position).2.1]
        · simp only [recorded, if_neg tested, if_neg testedAfter, childEq]
          congr 3
          funext position
          rw [(each position).2.2]

/-- In a settled tree a node is completely tested exactly if no leaf remains below it. -/
theorem isComplete_iff_remaining (settled : Settled tree) (program : DecisionProgram ω) :
    ∀ {id : Nat}, tree.Matches program id →
      ((tree.node id).isComplete = true ↔ tree.remaining program id = []) := by
  induction program with
  | ended outcome =>
      intro id recordedHere
      rcases recordedHere with untested | ⟨complete, -, -⟩
      · simp [remaining, Node.isComplete, untested]
      · simp [remaining, Node.isComplete, complete]
  | decision choice below inductionHypothesis =>
      intro id recordedHere
      rcases recordedHere with untested | ⟨tested, question, width, children⟩
      · rw [remaining_of_untested _ untested, Node.isComplete, untested]
        refine ⟨fun impossible => Bool.noConfusion impossible, fun none => ?_⟩
        exact absurd none (DecisionProgram.leaves_ne_nil _)
      · have some : (tree.node id).children ≠ [] := by
          rw [← List.length_pos_iff, width]
          exact List.length_pos_iff.2 choice.offered
        rw [settled id some, childrenComplete_iff, remaining, if_neg tested,
          List.flatMap_eq_nil_iff]
        simp only [List.map_eq_nil_iff]
        constructor
        · intro all position _
          have within : position.val < (tree.node id).children.length := by
            rw [width]
            exact position.isLt
          have member := childAt_mem within
          exact (inductionHypothesis position (children position)).1 (all _ member)
        · intro none child member
          obtain ⟨position, within, rfl⟩ := List.getElem_of_mem member
          have bound : position < choice.options.length := width ▸ within
          have here := (inductionHypothesis ⟨position, bound⟩ (children ⟨position, bound⟩)).2
            (none ⟨position, bound⟩ (List.mem_finRange _))
          rwa [childAt, List.getD_eq_getElem _ _ within] at here

/-- Where no leaf remains, every node of the program is recorded. -/
theorem recorded_of_remaining_nil (program : DecisionProgram ω) :
    ∀ {id : Nat}, tree.remaining program id = [] →
      tree.recorded program id = program.nodeCount := by
  induction program with
  | ended outcome =>
      intro id _
      rfl
  | decision choice below inductionHypothesis =>
      intro id none
      by_cases untested : (tree.node id).status = .untested
      · rw [remaining_of_untested _ untested] at none
        exact absurd none (DecisionProgram.leaves_ne_nil _)
      · rw [remaining, if_neg untested, List.flatMap_eq_nil_iff] at none
        rw [recorded, if_neg untested, DecisionProgram.nodeCount]
        congr 3
        funext position
        have here := none position (List.mem_finRange _)
        exact inductionHypothesis position (List.map_eq_nil_iff.1 here)

end ScheduleSearch.DecisionTree
