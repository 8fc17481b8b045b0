import ScheduleSearch.Proofs.Decision.Frontier
import ScheduleSearch.Proofs.Decision.Nondeterminism

/-!
# Exploration ends

A tester may ask anything, by the answers it has got so far in this execution and in all the
earlier ones; only the number of its questions in one execution is bounded.  Every execution
that is accepted moves the frontier of the decision tree, so some execution is refused or the
tree is complete in the end, and until then the choices of the accepted executions ascend and
never continue one another.  Main statement of this module: `exploration_ends`.
-/

namespace ScheduleSearch

/-- A question that offers something. -/
structure Offer extends Question where
  offered : options ≠ []

/-- What is asked next, if anything, given the answers of the earlier executions and those of
the present one. -/
abbrev Tester : Type :=
  List (List (Except Fault ThreadId)) → List (Except Fault ThreadId) → Option Offer

namespace DepthFirst

open DecisionTree

/-- The questions of one execution, at most as many as the bound allows. -/
def asks (next : List (Except Fault ThreadId) → Option Offer) :
    Nat → List (Except Fault ThreadId) → DepthFirst → List Question
  | 0, _, _ => []
  | bound + 1, answers, explorer =>
      match next answers with
      | none => []
      | some offer =>
          let (answer, asked) := explorer.decide offer.toQuestion
          offer.toQuestion :: asks next bound (answers ++ [answer]) asked

/-- The answers of some executions of a tester, and the explorer after them. -/
def trials (bound : Nat) (tester : Tester) :
    Nat → List (List (Except Fault ThreadId)) × DepthFirst
  | 0 => ([], start)
  | count + 1 =>
      let (earlier, explorer) := trials bound tester count
      let session := explorer.session (asks (tester earlier) bound [] explorer)
      (earlier ++ [session.answers], session.explorer)

/-- One of the executions of a tester. -/
def trial (bound : Nat) (tester : Tester) (count : Nat) : Session :=
  let (earlier, explorer) := trials bound tester count
  explorer.session (asks (tester earlier) bound [] explorer)

private theorem length_asks_le (next : List (Except Fault ThreadId) → Option Offer) (bound : Nat) :
    ∀ answers explorer, (asks next bound answers explorer).length ≤ bound := by
  induction bound with
  | zero =>
      intro answers explorer
      exact Nat.le_refl 0
  | succ bound inductionHypothesis =>
      intro answers explorer
      rw [asks]
      split
      next => exact Nat.zero_le _
      next => exact Nat.succ_le_succ (inductionHypothesis _ _)

private theorem offered_of_mem_asks (next : List (Except Fault ThreadId) → Option Offer)
    (bound : Nat) :
    ∀ answers explorer, ∀ question ∈ asks next bound answers explorer,
      question.options ≠ [] := by
  induction bound with
  | zero =>
      intro answers explorer question member
      cases member
  | succ bound inductionHypothesis =>
      intro answers explorer question member
      rw [asks] at member
      split at member
      next => cases member
      next offer _ =>
        rcases List.mem_cons.1 member with rfl | later
        · exact offer.offered
        · exact inductionHypothesis _ _ question later

/-- The frontier of `after` is that of `tree`, moved on by some first visits. -/
structure MovedOn (bound : Nat) (tree after : DecisionTree) : Prop where
  fewer : Relation.ReflTransGen (Relation.CutExpand (· < ·)) (after.openings bound)
    (tree.openings bound)
  passed : ∀ choices, tree.Passed choices → after.Passed choices

private theorem MovedOn.refl (bound : Nat) (tree : DecisionTree) : MovedOn bound tree tree :=
  ⟨.refl, fun _ passed => passed⟩

private theorem MovedOn.trans {bound : Nat} {tree middle after : DecisionTree}
    (first : MovedOn bound tree middle) (second : MovedOn bound middle after) :
    MovedOn bound tree after :=
  ⟨second.fewer.trans first.fewer, fun choices passed =>
    second.passed choices (first.passed choices passed)⟩

/-- The execution stands at an incomplete node, and no open place is to the left of it. -/
structure Leading (explorer : DepthFirst) (place : List Nat) : Prop where
  standing : Standing explorer place
  incomplete : (explorer.tree.node explorer.current).isComplete = false
  foremost : explorer.tree.Foremost place

section Execution

variable {explorer : DepthFirst} {place : List Nat} {bound : Nat} {question : Question}

private theorem Leading.new (leading : Leading explorer place)
    (unasked : explorer.tree.askedAt place = none) (offered : question.options ≠ [])
    (room : place.length < bound) :
    ∃ chosen next, explorer.decide question = (.ok chosen, next) ∧
      Leading next (place ++ [0]) ∧ MovedOn bound explorer.tree next.tree := by
  have standing := leading.standing
  have linked := standing.consistent.linked
  have untested := standing.untested unasked
  obtain ⟨first, found⟩ : ∃ first, question.options[0]? = some first :=
    ⟨_, List.getElem?_eq_getElem (List.length_pos_iff.2 offered)⟩
  obtain ⟨after, child, decided, visit, there⟩ := standing.decide_new unasked found
  refine ⟨first, _, decided, ⟨there, ?_, ?_⟩, ?_, ?_⟩
  · obtain ⟨parent, above, listed⟩ := nodeAt_concat_eq_some.1 there.here
    have same := visit.nodeAt_of_nodeAt linked untested standing.here
    rw [same] at above
    obtain rfl := Option.some.inj above
    rw [Node.isComplete, visit.untested_child listed]
    rfl
  · intro other isOpen
    rcases visit.isOpen_cases linked untested standing.here isOpen with ⟨before, apart⟩ |
      ⟨position, -, rfl⟩
    · right
      rcases leading.foremost other before with beyond | branches
      · exact absurd beyond apart
      · have further := branches.append [0] []
        rwa [List.append_nil] at further
    · cases position with
      | zero => exact Or.inl (List.prefix_refl _)
      | succ position => exact Or.inr (before_siblings place (Nat.succ_pos position))
  · refine Relation.ReflTransGen.single (visit.cuts linked standing.known untested ?_)
    intro _
    rw [depth_eq_length linked standing.here]
    exact room
  · intro choices passed
    exact visit.passed linked untested standing.here passed

private theorem Leading.same (leading : Leading explorer place) {recorded : Question}
    (asked : explorer.tree.askedAt place = some recorded)
    (same : recorded.same question = true) (offered : question.options ≠ []) :
    ∃ position chosen next, explorer.decide question = (.ok chosen, next) ∧
      Leading next (place ++ [position]) ∧ next.tree = explorer.tree := by
  have standing := leading.standing
  have linked := standing.consistent.linked
  obtain ⟨position, child, chosen, decided, -, way, there⟩ :=
    standing.decide_same asked same offered
  have children : (explorer.tree.node explorer.current).children ≠ [] := by
    rw [← List.length_pos_iff, standing.consistent.width standing.here asked,
      Question.length_eq_of_same same]
    exact List.length_pos_iff.2 offered
  obtain ⟨first, firstChild, firstWay, listed, order⟩ := standing.consistent.wayOn_eq children
  obtain ⟨rfl, rfl⟩ := Prod.mk.inj (Option.some.inj (way.symm.trans firstWay))
  obtain ⟨isOpen, earlier⟩ := order leading.incomplete
  refine ⟨position, chosen, _, decided, ⟨there, isOpen, ?_⟩, rfl⟩
  intro other unvisited
  rcases leading.foremost other unvisited with ⟨more, rfl⟩ | branches
  · obtain ⟨node, arrived, untested⟩ := unvisited
    cases more with
    | nil =>
        rw [List.append_nil, standing.here] at arrived
        obtain rfl := Option.some.inj arrived
        rw [standing.consistent.untested_iff standing.here, asked] at untested
        cases untested
    | cons choice more =>
        have split : place ++ choice :: more = place ++ [choice] ++ more := by simp
        rcases Nat.lt_trichotomy choice position with below | rfl | above
        · -- a child before the first open one is complete, so nothing is open below it
          exfalso
          obtain ⟨sibling, reached⟩ : ∃ sibling,
              explorer.tree.nodeAt (place ++ [choice]) = some sibling := by
            obtain ⟨within, -⟩ := List.getElem?_eq_some_iff.1 listed
            exact ⟨_, nodeAt_concat_eq_some.2 ⟨explorer.current, standing.here,
              List.getElem?_eq_getElem (Nat.lt_trans below within)⟩⟩
          obtain ⟨parent, here, siblingListed⟩ := nodeAt_concat_eq_some.1 reached
          rw [standing.here] at here
          obtain rfl := Option.some.inj here
          rw [split] at arrived
          have complete := isComplete_beyond standing.consistent.settled more reached
            (earlier choice sibling below siblingListed) arrived
          rw [Node.isComplete, untested] at complete
          cases complete
        · left
          rw [split]
          exact List.prefix_append _ _
        · right
          rw [split]
          have further := (before_siblings place above).append [] more
          rwa [List.append_nil] at further
  · right
    have further := branches.append [position] []
    rwa [List.append_nil] at further

/-- At the end of its questions an execution that was not put off stands in front. -/
theorem Leading.askAll {questions : List Question} :
    ∀ {explorer : DepthFirst} {place : List Nat}, Leading explorer place →
      (∀ question ∈ questions, question.options ≠ []) →
      place.length + questions.length ≤ bound →
      (explorer.askAll questions).2.deferred ≠ none ∨
        ∃ taken, Leading (explorer.askAll questions).2 taken ∧
          MovedOn bound explorer.tree (explorer.askAll questions).2.tree := by
  induction questions with
  | nil =>
      intro explorer place leading _ _
      exact Or.inr ⟨place, leading, .refl bound explorer.tree⟩
  | cons question rest inductionHypothesis =>
      intro explorer place leading offered room
      have offeredHere := offered question List.mem_cons_self
      have offeredRest : ∀ other ∈ rest, other.options ≠ [] := fun other member =>
        offered other (List.mem_cons_of_mem question member)
      rw [List.length_cons] at room
      have goesOn : ∀ {position chosen next}, explorer.decide question = (.ok chosen, next) →
          Leading next (place ++ [position]) → MovedOn bound explorer.tree next.tree →
          (explorer.askAll (question :: rest)).2.deferred ≠ none ∨
            ∃ taken, Leading (explorer.askAll (question :: rest)).2 taken ∧
              MovedOn bound explorer.tree (explorer.askAll (question :: rest)).2.tree := by
        intro position chosen next decided there moved
        simp only [DepthFirst.askAll, decided]
        rcases inductionHypothesis there offeredRest
          (by rw [List.length_append, List.length_singleton]; omega) with
          deferred | ⟨taken, arrived, later⟩
        · exact Or.inl deferred
        · exact Or.inr ⟨taken, arrived, moved.trans later⟩
      cases asked : explorer.tree.askedAt place with
      | none =>
          have within : place.length < bound := by omega
          obtain ⟨chosen, next, decided, there, moved⟩ := leading.new asked offeredHere within
          exact goesOn decided there moved
      | some recorded =>
          cases same : recorded.same question with
          | true =>
              obtain ⟨position, chosen, next, decided, there, kept⟩ :=
                leading.same asked same offeredHere
              refine goesOn decided there ?_
              rw [kept]
              exact .refl bound explorer.tree
          | false =>
              left
              obtain ⟨first, found⟩ : ∃ first, question.options[0]? = some first :=
                ⟨_, List.getElem?_eq_getElem (List.length_pos_iff.2 offeredHere)⟩
              have decided := leading.standing.decide_different asked same found
              have deferred : (DepthFirst.mk explorer.tree explorer.current
                  (some (.nondeterministicExecution place.length recorded.text question.text))
                  explorer.runs).deferred = some _ := rfl
              obtain ⟨answers, followed, -⟩ := askAll_deferred deferred rest offeredRest
              simp only [DepthFirst.askAll, decided, followed]
              exact Option.some_ne_none _

private theorem finish_of_deferred {explorer : DepthFirst} (deferred : explorer.deferred ≠ none) :
    explorer.finish.1 ≠ .ok () := by
  cases put : explorer.deferred with
  | none => exact absurd put deferred
  | some fault =>
      simp only [finish, put]
      intro impossible
      cases impossible

private theorem Leading.refuses_end (leading : Leading explorer place) {recorded : Question}
    (asked : explorer.tree.askedAt place = some recorded) : explorer.finish.1 ≠ .ok () := by
  have standing := leading.standing
  rw [standing.finish_again asked]
  cases same : recorded.same ⟨endOfExecution, []⟩ with
  | false => nofun
  | true =>
      have width := standing.consistent.width standing.here asked
      rw [Question.length_eq_of_same same] at width
      have tested : (explorer.tree.node explorer.current).status ≠ .untested := by
        rw [ne_eq, standing.consistent.untested_iff standing.here, asked]
        exact Option.some_ne_none recorded
      have complete := standing.consistent.ended tested (List.length_eq_zero_iff.1 width)
      rw [leading.incomplete] at complete
      cases complete

/-- What an accepted execution does to the frontier, if the tree was not complete before. -/
structure Accepted (bound : Nat) (tree after : DecisionTree) (choices : List Nat) : Prop where
  fewer : Relation.TransGen (Relation.CutExpand (· < ·)) (after.openings bound)
    (tree.openings bound)
  here : after.Passed choices
  earlier : ∀ other, tree.Passed other → after.Passed other ∧ Before other choices

private theorem Idle.accepted {known : List (List Nat × Question)} (idle : Idle explorer known)
    (incomplete : explorer.tree.isComplete = false) {questions : List Question}
    (offered : ∀ question ∈ questions, question.options ≠ [])
    (within : questions.length ≤ bound)
    (finished : (explorer.session questions).finished = .ok ()) :
    Accepted bound explorer.tree (explorer.session questions).explorer.tree
      (explorer.session questions).choices := by
  have leading : Leading explorer [] := by
    refine ⟨idle.standing, ?_, fun other _ => Or.inl List.nil_prefix⟩
    rw [idle.rewound]
    exact incomplete
  have room : ([] : List Nat).length + questions.length ≤ bound := by simpa using within
  simp only [DepthFirst.session] at finished ⊢
  rcases leading.askAll offered room with deferred | ⟨taken, arrived, moved⟩
  · exact absurd finished (finish_of_deferred deferred)
  · generalize (explorer.askAll questions).2 = final at *
    have standing := arrived.standing
    have linked := standing.consistent.linked
    have choices : Trace.choices final.trace = taken := choices_eq_place linked standing.here
    cases asked : final.tree.askedAt taken with
    | some recorded => exact absurd finished (arrived.refuses_end asked)
    | none =>
        have untested := standing.untested asked
        obtain ⟨after, visit, ended⟩ := standing.finish_new asked
        rw [ended, choices]
        constructor
        case fewer =>
          refine Relation.TransGen.head' (visit.cuts linked standing.known untested ?_) moved.fewer
          exact fun impossible => absurd rfl impossible
        case here =>
          intro place isOpen
          rcases visit.isOpen_cases linked untested standing.here isOpen with
            ⟨before, apart⟩ | ⟨position, below, -⟩
          · exact (arrived.foremost place before).resolve_left apart
          · exact absurd below (Nat.not_lt_zero position)
        case earlier =>
          intro other passed
          have still := moved.passed other passed
          exact ⟨visit.passed linked untested standing.here still,
            still taken ⟨final.current, standing.here, untested⟩⟩

end Execution

/-! ## Execution after execution -/

section Trials

variable (bound : Nat) (tester : Tester)

private theorem idle_trials (count : Nat) : ∃ known, Idle (trials bound tester count).2 known := by
  induction count with
  | zero => exact ⟨[], idle_start⟩
  | succ count inductionHypothesis =>
      obtain ⟨known, idle⟩ := inductionHypothesis
      exact ⟨_, idle.after _⟩

private theorem outcome_trial (count : Nat) :
    ∃ known, Outcome (trials bound tester count).2 known (trial bound tester count) := by
  obtain ⟨known, idle⟩ := idle_trials bound tester count
  exact ⟨known, idle.session (offered_of_mem_asks _ bound _ _)⟩

private theorem accepted_trial {count : Nat}
    (incomplete : (trials bound tester count).2.tree.isComplete = false)
    (finished : (trial bound tester count).finished = .ok ()) :
    Accepted bound (trials bound tester count).2.tree (trials bound tester (count + 1)).2.tree
      (trial bound tester count).choices := by
  obtain ⟨known, idle⟩ := idle_trials bound tester count
  exact idle.accepted incomplete (offered_of_mem_asks _ bound _ _) (length_asks_le _ bound _ _)
    finished

/-- Exploration cannot go on without end. -/
theorem exists_last : ∃ last, (trial bound tester last).finished ≠ .ok () ∨
    (trials bound tester (last + 1)).2.tree.isComplete = true := by
  have wellFounded : WellFounded (Relation.TransGen
      (Relation.CutExpand (fun left right : Nat => left < right))) :=
    (wellFounded_lt.cutExpand).transGen
  obtain ⟨count, stuck⟩ := @WellFounded.not_rel_apply_succ _ _ ⟨wellFounded⟩ fun count =>
    (trials bound tester count).2.tree.openings bound
  by_cases finished : (trial bound tester count).finished = .ok ()
  · cases complete : (trials bound tester count).2.tree.isComplete with
    | false => exact absurd (accepted_trial bound tester complete finished).fewer stuck
    | true =>
        cases count with
        | zero => cases complete
        | succ count => exact ⟨count, Or.inr complete⟩
  · exact ⟨count, Or.inl finished⟩

/-- While executions are accepted and the tree is not complete, what is passed stays passed. -/
theorem passed_trials {choices : List Nat} {first : Nat}
    (passed : (trials bound tester first).2.tree.Passed choices) :
    ∀ further, (∀ count, count < first + further →
      (trial bound tester count).finished = .ok () ∧
        (trials bound tester (count + 1)).2.tree.isComplete = false) →
      (trials bound tester (first + further)).2.tree.Passed choices := by
  intro further
  induction further with
  | zero => exact fun _ => passed
  | succ further inductionHypothesis =>
      intro goesOn
      have before := inductionHypothesis fun count below => goesOn count (by omega)
      have incomplete : (trials bound tester (first + further)).2.tree.isComplete = false := by
        cases index : first + further with
        | zero => rfl
        | succ count => exact (goesOn count (by omega)).2
      have finished := (goesOn (first + further) (by omega)).1
      exact ((accepted_trial bound tester incomplete finished).earlier choices before).1

/-- Whatever a tester asks, as long as it asks at most `bound` questions in an execution, some
execution is refused or completes the tree.  In all executions up to that one each answer is the
option at the position chosen, and if they are accepted the choices ascend in the lexicographic
order and none of them continues another. -/
theorem exploration_ends :
    ∃ last,
      ((∃ fault, (trial bound tester last).finished = .error fault) ∨
        (trial bound tester last).explorer.tree.isComplete = true) ∧
      (∀ earlier, earlier < last → (trial bound tester earlier).finished = .ok () ∧
        (trial bound tester earlier).explorer.tree.isComplete = false) ∧
      (∀ count, Answered (trial bound tester count).questions (trial bound tester count).choices
          (trial bound tester count).answers ∧
        ((trial bound tester count).finished = .ok () →
          (trial bound tester count).choices.length =
            (trial bound tester count).questions.length)) ∧
      ∀ left right, left < right → right ≤ last →
        (trial bound tester left).finished = .ok () →
        (trial bound tester right).finished = .ok () →
        (trial bound tester left).choices < (trial bound tester right).choices ∧
          ¬ (trial bound tester left).choices <+: (trial bound tester right).choices ∧
          ¬ (trial bound tester right).choices <+: (trial bound tester left).choices := by
  classical
  have exists_end := exists_last bound tester
  have goesOn : ∀ earlier, earlier < Nat.find exists_end →
      (trial bound tester earlier).finished = .ok () ∧
        (trials bound tester (earlier + 1)).2.tree.isComplete = false := by
    intro earlier below
    have neither := Nat.find_min exists_end below
    rw [not_or, not_not, Bool.not_eq_true] at neither
    exact neither
  have incomplete : ∀ count, count ≤ Nat.find exists_end →
      (trials bound tester count).2.tree.isComplete = false := by
    intro count within
    cases count with
    | zero => rfl
    | succ count => exact (goesOn count within).2
  refine ⟨Nat.find exists_end, ?_, goesOn, ?_, ?_⟩
  · rcases Nat.find_spec exists_end with refused | complete
    · left
      cases finished : (trial bound tester (Nat.find exists_end)).finished with
      | ok nothing => exact absurd finished refused
      | error fault => exact ⟨fault, rfl⟩
    · exact Or.inr complete
  · intro count
    obtain ⟨known, outcome⟩ := outcome_trial bound tester count
    refine ⟨outcome.answered, ?_⟩
    intro finished
    rcases outcome.ending with ⟨-, length, -⟩ | ⟨recorded, asked, disagreement⟩
    · exact length
    · rw [disagreement.finished] at finished
      cases finished
  · intro left right below within leftFinished rightFinished
    have here := (accepted_trial bound tester (incomplete left (by omega)) leftFinished).here
    have still := passed_trials bound tester here (right - (left + 1)) fun count earlier =>
      goesOn count (by omega)
    have same : left + 1 + (right - (left + 1)) = right := by omega
    rw [same] at still
    have before := ((accepted_trial bound tester (incomplete right within)
      rightFinished).earlier _ still).2
    exact ⟨before.lt, before.not_prefix⟩

end Trials

end DepthFirst

end ScheduleSearch
