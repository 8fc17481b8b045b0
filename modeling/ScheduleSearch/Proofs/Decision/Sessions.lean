import Mathlib.Data.List.Infix
import ScheduleSearch.Proofs.Decision.Places

/-!
# Executions that ask whatever they like

A *session* puts a list of questions to the depth-first explorer and ends the execution.  No
program stands behind the questions, so they may disagree with what earlier executions have
recorded.

`Standing` is the state between two questions of an execution that agreed so far: the explorer
stands at the place of the choices it has made.  There are three answers to a question, for it
may be new, or agree with the record, or disagree.  `Course` gathers what a whole list of
questions does; it depends on the tree only through the map from places to questions.
-/

namespace ScheduleSearch

private theorem length_eq_of_sameThreads {left right : List ThreadId}
    (same : sameThreads left right = true) : left.length = right.length := by
  induction left generalizing right with
  | nil =>
      cases right with
      | nil => rfl
      | cons other right => cases same
  | cons thread left inductionHypothesis =>
      cases right with
      | nil => cases same
      | cons other right =>
          rw [sameThreads, Bool.and_eq_true] at same
          rw [List.length_cons, List.length_cons, inductionHypothesis same.2]

theorem Question.length_eq_of_same {left right : Question} (same : left.same right = true) :
    left.options.length = right.options.length := by
  rw [Question.same, Bool.and_eq_true] at same
  exact length_eq_of_sameThreads same.2

namespace DecisionTree

variable {tree after : DecisionTree}

/-- Where a node has children there is a way on; below an incomplete node it is the first child
that is incomplete. -/
theorem Consistent.wayOn_eq (consistent : Consistent tree) {id : Nat}
    (children : (tree.node id).children ≠ []) :
    ∃ position child, DepthFirst.wayOn tree id = some (position, child) ∧
      (tree.node id).children[position]? = some child ∧
      ((tree.node id).isComplete = false → (tree.node child).isComplete = false ∧
        ∀ earlier sibling, earlier < position →
          (tree.node id).children[earlier]? = some sibling →
          (tree.node sibling).isComplete = true) := by
  cases complete : (tree.node id).isComplete with
  | false =>
      obtain ⟨position, within, found, isOpen, before⟩ :=
        firstOpenChild_eq_some consistent.settled children complete
      have listed : ∀ other, other < (tree.node id).children.length →
          (tree.node id).children[other]? = some (tree.childAt id other) := by
        intro other inside
        rw [List.getElem?_eq_getElem inside, childAt, List.getD_eq_getElem _ _ inside]
      refine ⟨position, tree.childAt id position, ?_, listed position within, ?_⟩
      · rw [DepthFirst.wayOn, found]
      · intro _
        refine ⟨isOpen, ?_⟩
        intro earlier sibling below there
        rw [listed earlier (Nat.lt_trans below within)] at there
        rw [← Option.some.inj there]
        exact before earlier below
  | true =>
      have closed := firstOpenChild_eq_none consistent.settled children complete
      obtain ⟨first, rest, shape⟩ := List.exists_cons_of_ne_nil children
      refine ⟨0, first, ?_, ?_, ?_⟩
      · rw [DepthFirst.wayOn, closed, shape]
        rfl
      · rw [shape]
        rfl
      · intro impossible
        cases impossible

namespace FirstVisit

variable {id : Nat} {question : Question}

theorem untested_child (visit : FirstVisit tree after id question) {position child : Nat}
    (listed : (after.node id).children[position]? = some child) :
    (after.node child).status = .untested := by
  rw [visit.children] at listed
  obtain ⟨within, rfl⟩ := List.getElem?_eq_some_iff.1 listed
  apply visit.fresh
  rw [List.getElem_range', Nat.one_mul]
  exact Nat.le_add_right _ _

private theorem width (visit : FirstVisit tree after id question) :
    (after.node id).children.length = question.options.length := by
  rw [visit.children, List.length_range']

private theorem children_ne_nil (visit : FirstVisit tree after id question)
    (offered : question.options ≠ []) : (after.node id).children ≠ [] := by
  rw [← List.length_pos_iff, visit.width]
  exact List.length_pos_iff.2 offered

private theorem incomplete (visit : FirstVisit tree after id question)
    (offered : question.options ≠ []) : (after.node id).isComplete = false := by
  have children := visit.children_ne_nil offered
  rw [← Bool.not_eq_true, visit.consistent.settled id children, childrenComplete_iff]
  intro all
  obtain ⟨first, rest, shape⟩ := List.exists_cons_of_ne_nil children
  have listed : (after.node id).children[0]? = some first := by
    rw [shape]
    rfl
  have complete := all first (List.mem_of_getElem? listed)
  rw [Node.isComplete, visit.untested_child listed] at complete
  cases complete

private theorem wayOn_eq (visit : FirstVisit tree after id question)
    (offered : question.options ≠ []) :
    ∃ child, DepthFirst.wayOn after id = some (0, child) ∧
      (after.node id).children[0]? = some child := by
  have children := visit.children_ne_nil offered
  obtain ⟨position, child, way, listed, order⟩ := visit.consistent.wayOn_eq children
  obtain ⟨-, earlier⟩ := order (visit.incomplete offered)
  cases position with
  | zero => exact ⟨child, way, listed⟩
  | succ position =>
      obtain ⟨first, rest, shape⟩ := List.exists_cons_of_ne_nil children
      have there : (after.node id).children[0]? = some first := by
        rw [shape]
        rfl
      have complete := earlier 0 first (Nat.succ_pos position) there
      rw [Node.isComplete, visit.untested_child there] at complete
      cases complete

end FirstVisit

end DecisionTree

namespace DepthFirst

open DecisionTree

/-- Puts some questions one after the other. -/
def askAll : DepthFirst → List Question → List (Except Fault ThreadId) × DepthFirst
  | explorer, [] => ([], explorer)
  | explorer, question :: rest =>
      let (answer, asked) := explorer.decide question
      let (answers, arrived) := asked.askAll rest
      (answer :: answers, arrived)

/-- What is seen of one execution that puts some questions. -/
structure Session where
  questions : List Question
  answers : List (Except Fault ThreadId)
  /-- The choices that the explorer reports before the execution ends. -/
  choices : List Nat
  finished : Except Fault Unit
  /-- The explorer afterwards. -/
  explorer : DepthFirst

/-- An execution that puts some questions and ends. -/
def session (explorer : DepthFirst) (questions : List Question) : Session :=
  let (answers, arrived) := explorer.askAll questions
  let (finished, rewound) := arrived.finish
  ⟨questions, answers, Trace.choices arrived.trace, finished, rewound⟩

/-- The execution agreed with the record so far, and has made the choices of a place. -/
structure Standing (explorer : DepthFirst) (place : List Nat) : Prop where
  consistent : Consistent explorer.tree
  steady : explorer.deferred = none
  here : explorer.tree.nodeAt place = some explorer.current

namespace Standing

variable {explorer : DepthFirst} {place : List Nat}

theorem known (standing : Standing explorer place) :
    explorer.current < explorer.tree.size :=
  nodeAt_lt_size standing.consistent.linked standing.here

theorem untested (standing : Standing explorer place)
    (unasked : explorer.tree.askedAt place = none) :
    (explorer.tree.node explorer.current).status = .untested :=
  (standing.consistent.untested_iff standing.here).2 unasked

/-- At a place where an execution arrived before, a visit compares with the record. -/
theorem visit_eq (standing : Standing explorer place) {recorded : Question}
    (asked : explorer.tree.askedAt place = some recorded) (question : Question) :
    explorer.tree.visit explorer.current question =
      if recorded.same question then .ok explorer.tree
      else .error (.nondeterministicExecution place.length recorded.text question.text) := by
  have tested : (explorer.tree.node explorer.current).status ≠ .untested := by
    rw [ne_eq, standing.consistent.untested_iff standing.here, asked]
    exact Option.some_ne_none recorded
  have found : (explorer.tree.node explorer.current).question = some recorded := by
    rw [← askedAt_eq standing.here, asked]
  have depth := depth_eq_length standing.consistent.linked standing.here
  simp only [visit, if_neg tested, found, depth, Option.any_some, Option.getD_some]

/-- A new question is recorded, and the first option is taken. -/
theorem decide_new (standing : Standing explorer place)
    (unasked : explorer.tree.askedAt place = none) {question : Question} {first : ThreadId}
    (offered : question.options[0]? = some first) :
    ∃ after child,
      explorer.decide question =
        (.ok first, { explorer with tree := after, current := child }) ∧
      FirstVisit explorer.tree after explorer.current question ∧
      Standing { explorer with tree := after, current := child } (place ++ [0]) := by
  obtain ⟨label, options⟩ := question
  cases options with
  | nil => cases offered
  | cons head rest =>
      obtain rfl := Option.some.inj offered
      have untested := standing.untested unasked
      obtain ⟨after, visited, visit⟩ := standing.consistent.visit_untested
        ⟨label, head :: rest⟩ standing.known untested
      obtain ⟨child, way, listed⟩ := visit.wayOn_eq (List.cons_ne_nil head rest)
      refine ⟨after, child, ?_, visit, visit.consistent, standing.steady, ?_⟩
      · have advanced : explorer.advance ⟨label, head :: rest⟩ =
            .ok (head, { explorer with tree := after, current := child }) := by
          simp only [advance, visited, bind, Except.bind, way, List.getElem?_cons_zero]
          rfl
        simp [decide, standing.steady, advanced]
      · rw [nodeAt_concat_eq_some]
        exact ⟨explorer.current, visit.nodeAt_of_nodeAt standing.consistent.linked untested
          standing.here, listed⟩

/-- A question that agrees with the record changes nothing in the tree. -/
theorem decide_same (standing : Standing explorer place) {recorded question : Question}
    (asked : explorer.tree.askedAt place = some recorded)
    (same : recorded.same question = true) (offered : question.options ≠ []) :
    ∃ position child chosen,
      explorer.decide question = (.ok chosen, { explorer with current := child }) ∧
      question.options[position]? = some chosen ∧
      DepthFirst.wayOn explorer.tree explorer.current = some (position, child) ∧
      Standing { explorer with current := child } (place ++ [position]) := by
  have width : (explorer.tree.node explorer.current).children.length =
      question.options.length := by
    rw [standing.consistent.width standing.here asked]
    exact Question.length_eq_of_same same
  have children : (explorer.tree.node explorer.current).children ≠ [] := by
    rw [← List.length_pos_iff, width]
    exact List.length_pos_iff.2 offered
  obtain ⟨position, child, way, listed, -⟩ := standing.consistent.wayOn_eq children
  obtain ⟨within, -⟩ := List.getElem?_eq_some_iff.1 listed
  rw [width] at within
  have chosen := List.getElem?_eq_getElem within
  refine ⟨position, child, question.options[position], ?_, chosen, way,
    standing.consistent, standing.steady, ?_⟩
  · have visited := standing.visit_eq asked question
    rw [if_pos same] at visited
    have advanced : explorer.advance question =
        .ok (question.options[position], { explorer with current := child }) := by
      simp only [advance, visited, bind, Except.bind, way, chosen]
      rfl
    rw [decide]
    split
    next none => exact absurd none offered
    next => simp [standing.steady, advanced]
  · rw [nodeAt_concat_eq_some]
    exact ⟨explorer.current, standing.here, listed⟩

/-- A question that disagrees with the record is answered with its first option, and the fault
is put off. -/
theorem decide_different (standing : Standing explorer place) {recorded question : Question}
    (asked : explorer.tree.askedAt place = some recorded)
    (different : recorded.same question = false) {first : ThreadId}
    (offered : question.options[0]? = some first) :
    explorer.decide question =
      (.ok first,
        { explorer with
          deferred := some
            (.nondeterministicExecution place.length recorded.text question.text) }) := by
  have visited := standing.visit_eq asked question
  rw [different] at visited
  obtain ⟨label, options⟩ := question
  cases options with
  | nil => cases offered
  | cons head rest =>
      obtain rfl := Option.some.inj offered
      have advanced : explorer.advance ⟨label, head :: rest⟩ =
          .error (.nondeterministicExecution place.length recorded.text
            (Question.text ⟨label, head :: rest⟩)) := by
        simp only [advance, visited]
        rfl
      simp [decide, standing.steady, advanced]

/-- At a new place the end of the execution is recorded. -/
theorem finish_new (standing : Standing explorer place)
    (unasked : explorer.tree.askedAt place = none) :
    ∃ after, FirstVisit explorer.tree after explorer.current ⟨endOfExecution, []⟩ ∧
      explorer.finish = (.ok (), ⟨after, DecisionTree.root, none, explorer.runs + 1⟩) := by
  obtain ⟨after, visited, visit⟩ := standing.consistent.visit_untested ⟨endOfExecution, []⟩
    standing.known (standing.untested unasked)
  refine ⟨after, visit, ?_⟩
  simp only [finish, visited, standing.steady]
  rfl

/-- Where an execution arrived before, it must have ended there. -/
theorem finish_again (standing : Standing explorer place) {recorded : Question}
    (asked : explorer.tree.askedAt place = some recorded) :
    explorer.finish =
      (if recorded.same ⟨endOfExecution, []⟩ then .ok ()
        else .error (.nondeterministicExecution place.length recorded.text
          (Question.text ⟨endOfExecution, []⟩)),
        ⟨explorer.tree, DecisionTree.root, none, explorer.runs + 1⟩) := by
  have visited := standing.visit_eq asked ⟨endOfExecution, []⟩
  cases same : recorded.same ⟨endOfExecution, []⟩ with
  | true =>
      rw [same] at visited
      simp only [finish, visited, standing.steady]
      rfl
  | false =>
      rw [same] at visited
      simp only [finish, visited, standing.steady]
      rfl

end Standing

end DepthFirst

end ScheduleSearch
