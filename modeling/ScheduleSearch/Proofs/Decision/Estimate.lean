import ScheduleSearch.Proofs.Decision.Executions
import ScheduleSearch.Proofs.Decision.LeftmostPath
import ScheduleSearch.Proofs.Decision.Retrace

/-!
# Estimates of the number of executions

A program is executed again and again, also when nothing is left to try, and the explorer is
asked for its estimate at any point between two calls.  `Exploring` is the relation of these
points.  What carries the main result is `Underway`: from every point the execution comes to its
end as if nobody had looked, and until then the tree has only grown since the execution began.

The first execution fixes the leftmost path.  From then on the estimate is the product of the
numbers of options on it, cut off at the largest number.
-/

namespace ScheduleSearch

/-- The points of an exploration: how many executions have ended, what is left of the one that is
under way, and the explorer. -/
inductive DecisionProgram.Exploring {ω σ : Type} [Explorer σ] (program : DecisionProgram ω)
    (first : σ) : Nat → DecisionProgram ω → σ → Prop
  | start : Exploring program first 0 program first
  | decide {count : Nat} {choice : Choice} {below : Fin choice.options.length → DecisionProgram ω}
      {explorer asked : σ} {thread : ThreadId} {position : Fin choice.options.length}
      (point : Exploring program first count (.decision choice below) explorer)
      (answered : DecisionSource.decide explorer choice.toQuestion = (.ok thread, asked))
      (chosen : (choice.options.get position).same thread = true) :
      Exploring program first count (below position) asked
  | finish {count : Nat} {outcome : ω} {explorer : σ}
      (point : Exploring program first count (.ended outcome) explorer) :
      Exploring program first (count + 1) program (Explorer.finish explorer).2

/-- Whoever is led to a leaf comes to the point where the execution ends. -/
theorem DecisionProgram.Exploring.leads {ω σ : Type} [Explorer σ] {program here : DecisionProgram ω}
    {first explorer arrived : σ} {count : Nat} {leaf : Leaf ω}
    (point : program.Exploring first count here explorer)
    (leads : here.Leads explorer leaf arrived) :
    program.Exploring first count (.ended leaf.outcome) arrived := by
  induction leads with
  | ended outcome source => exact point
  | decision answered chosen rest inductionHypothesis =>
      exact inductionHypothesis (point.decide answered chosen)

namespace DepthFirst

open DecisionTree

variable {ω : Type} {explorer after : DepthFirst}

/-- The tree is well formed, and the explorer stands at one of its nodes. -/
structure Poised (explorer : DepthFirst) : Prop where
  wellFormed : WellFormed explorer.tree
  known : explorer.current < explorer.tree.size

private theorem poised_start : Poised start :=
  ⟨wellFormed_start, wellFormed_start.linked.inhabited⟩

/-- What becomes of an explorer by decisions: its tree grows, and is complete only if it was. -/
structure Onward (explorer after : DepthFirst) : Prop where
  poised : Poised after
  grown : Grown explorer.tree after.tree
  isComplete : after.tree.isComplete = explorer.tree.isComplete

private theorem Poised.onward (poised : Poised explorer) : Onward explorer explorer :=
  ⟨poised, .refl explorer.tree, rfl⟩

private theorem Onward.trans {middle : DepthFirst} (first : Onward explorer middle)
    (second : Onward middle after) : Onward explorer after :=
  ⟨second.poised, first.grown.trans second.grown, second.isComplete.trans first.isComplete⟩

private theorem wayOn_mem {tree : DecisionTree} {id position child : Nat}
    (found : wayOn tree id = some (position, child)) : child ∈ (tree.node id).children := by
  unfold wayOn at found
  split at found
  next way openChild =>
      obtain rfl := Option.some.inj found
      obtain ⟨place, -, there⟩ := Option.bind_eq_some_iff.1 openChild
      obtain ⟨other, listed, same⟩ := Option.map_eq_some_iff.1 there
      obtain ⟨-, rfl⟩ := Prod.mk.inj same
      exact List.mem_of_getElem? listed
  next none =>
      obtain ⟨other, first, same⟩ := Option.map_eq_some_iff.1 found
      obtain ⟨-, rfl⟩ := Prod.mk.inj same
      exact List.mem_of_mem_head? first

private theorem advance_ok {question : Question} {thread : ThreadId}
    (advanced : explorer.advance question = .ok (thread, after)) :
    ∃ visited child, explorer.tree.visit explorer.current question = .ok visited ∧
      child ∈ (visited.node explorer.current).children ∧
      after = { explorer with tree := visited, current := child } := by
  unfold advance at advanced
  cases visit : explorer.tree.visit explorer.current question with
  | error fault =>
      rw [visit] at advanced
      cases advanced
  | ok visited =>
      rw [visit] at advanced
      dsimp only [bind, Except.bind] at advanced
      split at advanced
      next => cases advanced
      next position child found =>
          split at advanced
          next => cases advanced
          next chosen offered =>
              obtain ⟨-, rfl⟩ := Prod.mk.inj (Except.ok.inj advanced)
              exact ⟨visited, child, rfl, wayOn_mem found, rfl⟩

private theorem Poised.next (poised : Poised explorer) (question : Question) :
    WellFormed (explorer.tree.next (.visit explorer.current question)) ∧
      Grown explorer.tree (explorer.tree.next (.visit explorer.current question)) :=
  poised.wellFormed.next poised.known

private theorem Poised.visit {question : Question} {visited : DecisionTree}
    (poised : Poised explorer)
    (offered : question.options ≠ [])
    (visit : explorer.tree.visit explorer.current question = .ok visited) :
    WellFormed visited ∧ Grown explorer.tree visited ∧
      visited.isComplete = explorer.tree.isComplete := by
  have next := poised.next question
  rw [next_of_visited visit] at next
  refine ⟨next.1, next.2, ?_⟩
  rcases visit_cases explorer.tree explorer.current question with
    ⟨untested, ⟨-, expanded⟩ | ⟨unoffered, -⟩⟩ | ⟨-, same | ⟨fault, refused⟩⟩
  · obtain rfl := Except.ok.inj (expanded.symm.trans visit)
    exact isComplete_expand poised.known untested root
  · exact absurd unoffered offered
  · obtain rfl := Except.ok.inj (same.symm.trans visit)
    rfl
  · cases refused.symm.trans visit

private theorem Poised.decide (poised : Poised explorer) (question : Question) :
    Onward explorer (explorer.decide question).2 := by
  unfold DepthFirst.decide
  split
  next unoffered => exact poised.onward
  next first rest options =>
      have offered : question.options ≠ [] := by
        rw [options]
        exact List.cons_ne_nil first rest
      split
      next deferred => exact poised.onward
      next steady =>
          split
          next chosen advanced advance =>
              obtain ⟨visited, child, visit, member, rfl⟩ := advance_ok advance
              obtain ⟨wellFormed, grown, isComplete⟩ := poised.visit offered visit
              exact ⟨⟨wellFormed, (wellFormed.linked.childOf member).2.1⟩, grown, isComplete⟩
          next fault refused => exact ⟨⟨poised.wellFormed, poised.known⟩, .refl _, rfl⟩

private theorem Poised.answered {question : Question} {answer : Except Fault ThreadId}
    (poised : Poised explorer)
    (answered : DecisionSource.decide explorer question = (answer, after)) :
    Onward explorer after := by
  have decided := poised.decide question
  rwa [show (explorer.decide question).2 = after from congrArg Prod.snd answered] at decided

private theorem Poised.finish (poised : Poised explorer) : Poised explorer.finish.2 := by
  have next := (poised.next ⟨endOfExecution, []⟩).1
  have rewound : explorer.finish.2.tree =
      explorer.tree.next (.visit explorer.current ⟨endOfExecution, []⟩) ∧
        explorer.finish.2.current = root := by
    unfold DepthFirst.finish
    cases explorer.deferred <;> exact ⟨rfl, rfl⟩
  constructor
  · rw [rewound.1]
    exact next
  · rw [rewound.1, rewound.2]
    exact next.linked.inhabited

private theorem Poised.askAll (questions : List Question) :
    ∀ {explorer : DepthFirst}, Poised explorer →
      Poised (DecisionSource.askAll explorer questions).2 := by
  induction questions with
  | nil => exact fun poised => poised
  | cons question rest inductionHypothesis =>
      exact fun poised => inductionHypothesis (poised.decide question).poised

private theorem Poised.afterAll (executions : List (List Question)) :
    ∀ {explorer : DepthFirst}, Poised explorer →
      Poised (Explorer.afterAll explorer executions) := by
  induction executions with
  | nil => exact fun poised => poised
  | cons questions rest inductionHypothesis =>
      exact fun poised => inductionHypothesis (poised.askAll questions).finish

/-- The loop of the estimate comes to an end at the leftmost leaf. -/
theorem Poised.estimates (poised : Poised explorer) :
    Estimates explorer.tree root 1 (estimate explorer) :=
  poised.wellFormed.linked.estimates_within explorer.tree.size
    poised.wellFormed.linked.inhabited (Nat.le_add_left _ _)

private theorem Poised.leads {program : DecisionProgram ω} {leaf : Leaf ω}
    (poised : Poised explorer)
    (leads : program.Leads explorer leaf after) : Onward explorer after := by
  induction leads with
  | ended outcome source => exact poised.onward
  | @decision choice below explorer asked after thread position leaf answered chosen rest
      inductionHypothesis =>
      have decided := poised.answered answered
      exact decided.trans (inductionHypothesis decided.poised)

private theorem afterExecutions_succ {program : DecisionProgram ω} {count : Nat} {leaf : Leaf ω}
    {arrived rewound : DepthFirst}
    (leads : program.Leads (afterExecutions program count) leaf arrived)
    (finished : Explorer.finish arrived = (.ok (), rewound)) :
    afterExecutions program (count + 1) = rewound := by
  change (program.execute (afterExecutions program count)).explorer = rewound
  unfold DecisionProgram.execute
  rw [DecisionProgram.walk_of_leads leads]
  exact congrArg Prod.snd finished

private theorem covers_anyway (program : DecisionProgram ω) (count : Nat) :
    Covers program (afterExecutions program count) (program.leaves.drop count) := by
  induction count with
  | zero => exact covers_start program
  | succ count inductionHypothesis =>
      obtain ⟨leaf, arrived, rewound, leads, -, finished, covers⟩ :=
        inductionHypothesis.leads_anyway
      rw [afterExecutions_succ leads finished, ← List.tail_drop]
      exact covers

private theorem poised_afterExecutions (program : DecisionProgram ω) (count : Nat) :
    Poised (afterExecutions program count) := by
  induction count with
  | zero => exact poised_start
  | succ count inductionHypothesis =>
      obtain ⟨leaf, arrived, rewound, leads, -, finished, -⟩ :=
        (covers_anyway program count).leads_anyway
      have rewind := (inductionHypothesis.leads leads).poised.finish
      rw [afterExecutions_succ leads finished]
      rwa [show arrived.finish.2 = rewound from congrArg Prod.snd finished] at rewind

/-- An execution is under way: it will end as it should, and the tree has only grown since it
began. -/
structure Underway (program : DecisionProgram ω) (count : Nat) (here : DecisionProgram ω)
    (explorer : DepthFirst) : Prop where
  since : Onward (afterExecutions program count) explorer
  onward : ∃ leaf arrived, here.Leads explorer leaf arrived ∧
    Explorer.finish arrived = (.ok (), afterExecutions program (count + 1))

private theorem underway_afterExecutions (program : DecisionProgram ω) (count : Nat) :
    Underway program count program (afterExecutions program count) := by
  obtain ⟨leaf, arrived, rewound, leads, -, finished, -⟩ :=
    (covers_anyway program count).leads_anyway
  refine ⟨(poised_afterExecutions program count).onward, leaf, arrived, leads, ?_⟩
  rw [afterExecutions_succ leads finished]
  exact finished

private theorem Underway.of_exploring {program here : DecisionProgram ω} {count : Nat}
    (point : program.Exploring start count here explorer) :
    Underway program count here explorer := by
  induction point with
  | start => exact underway_afterExecutions program 0
  | @decide count choice below explorer asked thread position point answered chosen
      inductionHypothesis =>
      obtain ⟨since, leaf, arrived, leads, finished⟩ := inductionHypothesis
      cases leads with
      | @decision _ _ _ asked' _ thread' position' leaf answered' chosen' rest =>
          obtain ⟨answer, rfl⟩ := Prod.mk.inj (answered.symm.trans answered')
          obtain rfl := Except.ok.inj answer
          have found := choice.position?_of_same chosen
          obtain rfl := Option.some.inj (found.symm.trans (choice.position?_of_same chosen'))
          exact ⟨since.trans (since.poised.answered answered), leaf, arrived, rest, finished⟩
  | @finish count outcome explorer point inductionHypothesis =>
      obtain ⟨-, leaf, arrived, leads, finished⟩ := inductionHypothesis
      cases leads with
      | ended =>
          rw [finished]
          exact underway_afterExecutions program (count + 1)

/-- The explorer between two executions is at a point of its exploration. -/
theorem exploring_afterExecutions (program : DecisionProgram ω) (count : Nat) :
    program.Exploring start count program (afterExecutions program count) := by
  induction count with
  | zero => exact .start
  | succ count inductionHypothesis =>
      obtain ⟨-, leaf, arrived, leads, finished⟩ := underway_afterExecutions program count
      have rewound := (inductionHypothesis.leads leads).finish
      rwa [finished] at rewound

/-- The first execution fixes the leftmost path for good. -/
theorem Underway.leftmost {program here : DecisionProgram ω} {count : Nat} (ended : 1 ≤ count)
    (underway : Underway program count here explorer) :
    Leftmost explorer.tree root program.leftmostWidths := by
  have covers := covers_anyway program count
  have leftmost := Matches.leftmost program covers.recorded <| by
    rw [covers.remaining]
    exact program.leftmostLeaf_notMem_drop ended
  exact leftmost.grown underway.since.grown
    (poised_afterExecutions program count).wellFormed.recorded
    underway.since.poised.wellFormed.recorded

private theorem Poised.estimate_eq {widths : List Nat} (poised : Poised explorer)
    (leftmost : Leftmost explorer.tree root widths) :
    estimate explorer = min largestEstimate widths.prod := by
  have follows : Estimates explorer.tree root 1 (min largestEstimate (1 * widths.prod)) :=
    leftmost.estimates (by decide)
  rw [Nat.one_mul] at follows
  exact poised.estimates.unique follows

private theorem Underway.isComplete_iff {program here : DecisionProgram ω} {count : Nat}
    (underway : Underway program count here explorer) :
    explorer.tree.isComplete = true ↔ program.leaves.length ≤ count := by
  rw [underway.since.isComplete, (covers_anyway program count).isComplete_iff, List.drop_eq_nil_iff]

/-- Once an execution has ended the estimate is the product of the numbers of options on the
leftmost path, which is the number of executions that are needed if all nodes at a depth have as
many options.  Whatever is asked of an explorer, its estimate comes to an end and is a positive
number that is not too large. -/
theorem estimate_lawful :
    (∀ {ω : Type} {program here : DecisionProgram ω} {count : Nat} {explorer : DepthFirst},
      program.Exploring start count here explorer →
        (1 ≤ count →
          Explorer.estimate explorer = min (2 ^ 64 - 1) program.leftmostWidths.prod) ∧
        (1 ≤ count → program.Uniform →
          Explorer.estimate explorer = min (2 ^ 64 - 1) program.leaves.length) ∧
        (Explorer.isComplete explorer = true ↔ program.leaves.length ≤ count)) ∧
      ∀ (executions : List (List Question)) (questions : List Question),
        let explorer :=
          (DecisionSource.askAll (Explorer.afterAll DepthFirst.start executions) questions).2
        Estimates explorer.tree root 1 (Explorer.estimate explorer) ∧
          1 ≤ Explorer.estimate explorer ∧ Explorer.estimate explorer ≤ 2 ^ 64 - 1 := by
  constructor
  · intro ω program here count explorer point
    have underway := Underway.of_exploring point
    have exact : 1 ≤ count →
        Explorer.estimate explorer = min (2 ^ 64 - 1) program.leftmostWidths.prod :=
      fun ended => underway.since.poised.estimate_eq (underway.leftmost ended)
    refine ⟨exact, fun ended uniform => ?_, underway.isComplete_iff⟩
    rw [exact ended, program.length_leaves_of_alike program uniform]
  · intro executions questions explorer
    have poised : Poised explorer := (poised_start.afterAll executions).askAll questions
    exact ⟨poised.estimates, poised.estimates.bounds (Nat.le_refl 1) (by decide)⟩

/-- Three threads could start, and whichever does, two could go on. -/
def threeByTwo : DecisionProgram Unit :=
  .decision ⟨⟨"main @ start", [.root, .child .root 0, .child .root 1]⟩, by decide, by decide⟩
    fun _ => .decision ⟨⟨"main @ work", [.root, .child .root 0]⟩, by decide, by decide⟩
      fun _ => .ended ()

private theorem uniform_threeByTwo : threeByTwo.Uniform := by
  intro depth
  match depth with
  | 0 | 1 | 2 => decide
  | depth + 3 =>
      intro left member
      have none : threeByTwo.widthsAt (depth + 3) = [] := rfl
      rw [none] at member
      cases member

/-- In the middle of the second execution the estimate is that there will be six. -/
theorem estimate_of_threeByTwo :
    let question : Question := ⟨"main @ start", [.root, .child .root 0, .child .root 1]⟩
    let explorer := ((afterExecutions threeByTwo 1).decide question).2
    (∃ here, threeByTwo.Exploring start 1 here explorer) ∧ threeByTwo.Uniform ∧
      Explorer.estimate explorer = 6 ∧ Explorer.isComplete explorer ≠ true := by
  intro question explorer
  have answered : (afterExecutions threeByTwo 1).decide question = (.ok .root, explorer) :=
    Prod.ext (by decide +kernel) rfl
  have chosen : (question.options.get ⟨0, by decide⟩).same .root = true := by decide
  have point := (exploring_afterExecutions threeByTwo 1).decide answered chosen
  obtain ⟨-, estimate, complete⟩ := estimate_lawful.1 point
  have count : threeByTwo.leaves.length = 6 := by decide
  rw [count] at estimate complete
  exact ⟨⟨_, point⟩, uniform_threeByTwo, estimate (Nat.le_refl 1) uniform_threeByTwo,
    fun all => absurd (complete.1 all) (by decide)⟩

end DepthFirst

end ScheduleSearch
