import Mathlib.Logic.Equiv.Basic
import ScheduleSearch.Decision.Script
import ScheduleSearch.Proofs.Exploration.Progress
import ScheduleSearch.Proofs.Scheduler.Renaming

/-!
# Lock numbers do not matter

A program of events and the same program with every lock replaced by another are run under one
source.  Event by event the two runs get the same answers and come to the same states, but for
the locks, and the source is asked the same questions.  So the order in which locks happen to be
numbered does not show in what a search finds.
-/

namespace ScheduleSearch

/-- One event of a run. -/
structure Moment (σ : Type) where
  actor : ThreadId
  event : Event
  /-- What came of the event. -/
  outcome : Outcome Reply
  /-- The state after the event. -/
  after : Scheduler σ

/-- The same event of the same thread, told with other lock numbers. -/
structure Moment.Renamed {σ : Type} [DecisionSource σ] (rename : LockId → LockId)
    (left right : Moment σ) : Prop where
  actor : right.actor = left.actor
  event : right.event = left.event.renamed rename
  result : Retold rename (left.outcome, left.after) (right.outcome, right.after)

/-- A source with the questions it was asked, first to last. -/
structure Questioned (σ : Type) where
  source : σ
  questions : List Question

namespace Questioned

variable {σ : Type} [DecisionSource σ]

/-- A source that was not asked anything. -/
def ofSource (source : σ) : Questioned σ := ⟨source, []⟩

/-- Answers as the source does. -/
def decide (questioned : Questioned σ) (question : Question) :
    Except Fault ThreadId × Questioned σ :=
  let (answer, source) := DecisionSource.decide questioned.source question
  (answer, ⟨source, questioned.questions ++ [question]⟩)

instance : DecisionSource (Questioned σ) where
  decide := decide

end Questioned

namespace EventProgram

section Moments

variable {σ : Type} [DecisionSource σ]

/-- The events of a run with what came of them, at most the given number. -/
def momentsWithin : Nat → EventProgram → Scheduler σ → List (Moment σ)
  | 0, _, _ => []
  | steps + 1, program, state =>
      match state.running? with
      | none => []
      | some actor =>
          let (event, rest) := program.next actor
          let (outcome, after) := state.step actor event
          ⟨actor, event, outcome, after⟩ ::
            match Ending.of? outcome with
            | some _ => []
            | none => momentsWithin steps rest after

def moments (program : EventProgram) (source : σ) (maxDecisions : Nat) : List (Moment σ) :=
  momentsWithin program.steps program
    ((Scheduler.fresh source maxDecisions).begin rootHost).2

/-- The state after the last of some moments. -/
def stopped (state : Scheduler σ) (moments : List (Moment σ)) : Scheduler σ :=
  moments.foldl (fun _ moment => moment.after) state

/-- A run is known from its moments: it applies their events, ends as the last of them says and
stops in the state after it. -/
theorem runWithin_eq_moments (steps : Nat) :
    ∀ (program : EventProgram) (state : Scheduler σ),
      runWithin steps program state =
        { history := (momentsWithin steps program state).map fun moment =>
            (moment.actor, moment.event)
          ending := ((momentsWithin steps program state).getLast?.bind fun moment =>
            Ending.of? moment.outcome).getD .unfinished
          final := stopped state (momentsWithin steps program state) } := by
  induction steps with
  | zero => exact fun _ _ => rfl
  | succ steps inductionHypothesis =>
      intro program state
      unfold momentsWithin
      cases runs : state.running? with
      | none =>
          rw [runWithin, runs]
          rfl
      | some actor =>
          rw [runWithin_succ steps program runs]
          dsimp only
          cases ended : Ending.of? (state.step actor (program.next actor).1).1 with
          | some ending => simp [ended, stopped]
          | none =>
              dsimp only
              rw [inductionHypothesis, List.getLast?_cons]
              cases List.getLast? _ with
              | none => simp [ended, stopped]
              | some last => rfl

end Moments

/-- The program with every lock replaced that an event names. -/
def renamed (rename : LockId → LockId) (program : EventProgram) : EventProgram :=
  ⟨program.lists.mapValues (List.map (Event.renamed rename))⟩

variable {rename : LockId → LockId} (program : EventProgram)

private theorem steps_renamed : (program.renamed rename).steps = program.steps := by
  have listed : (program.renamed rename).lists.values.flatten =
      program.lists.values.flatten.map (Event.renamed rename) := by
    simp only [renamed, Table.values, Table.mapValues, List.map_map, List.map_flatten]
    rfl
  simp only [steps, size, listed, List.length_map]

private theorem next_renamed (thread : ThreadId) :
    (program.renamed rename).next thread =
      ((program.next thread).1.renamed rename, (program.next thread).2.renamed rename) := by
  have found : (program.renamed rename).lists.get? thread.name =
      (program.lists.get? thread.name).map (List.map (Event.renamed rename)) :=
    Table.get?_mapValues _ program.lists thread.name
  unfold next
  rw [found]
  match program.lists.get? thread.name with
  | none => rfl
  | some [] => rfl
  | some (event :: rest) =>
      have inserted := Table.insert_mapValues (List.map (Event.renamed rename)) program.lists
        thread.name rest
      exact congrArg (fun lists => (event.renamed rename, (⟨lists⟩ : EventProgram))) inserted

variable {σ : Type} [DecisionSource σ]

private theorem ending_isNone_of_retold {left right : Outcome Reply × Scheduler σ}
    (retold : Retold rename left right) :
    (Ending.of? right.1).isNone = (Ending.of? left.1).isNone := by
  rcases retold.outcome with same | ⟨same, -⟩
  · rw [same]
    match left.1 with
    | .error halt => rfl
    | .ok (.schedule (.resume next)) => rfl
    | .ok (.schedule .goOn) => rfl
    | .ok (.schedule .quiescent) => rfl
    | .ok (.announced child) => rfl
    | .ok (.flag isSet) => rfl
    | .ok .done => rfl
  · rw [same]

/-- Step by step the same threads run, so the programs stay the same but for the locks. -/
theorem momentsWithin_renamed (injective : Function.Injective rename) (steps : Nat) :
    ∀ (program : EventProgram) (state : Scheduler σ),
      List.Forall₂ (Moment.Renamed rename) (momentsWithin steps program state)
        (momentsWithin steps (program.renamed rename) (state.renamed rename)) := by
  induction steps with
  | zero => exact fun _ _ => .nil
  | succ steps inductionHypothesis =>
      intro program state
      have running : (state.renamed rename).running? = state.running? :=
        state.threads.running?_renamed rename
      unfold momentsWithin
      rw [running]
      cases state.running? with
      | none => exact .nil
      | some actor =>
          have retold := state.step_renamed injective actor (program.next actor).1
          have goesOn := ending_isNone_of_retold retold
          dsimp only
          rw [next_renamed]
          dsimp only
          refine .cons ⟨rfl, rfl, retold⟩ ?_
          rw [retold.after]
          cases ended : Ending.of? (state.step actor (program.next actor).1).1 with
          | some ending =>
              rw [ended] at goesOn
              obtain ⟨twin, also⟩ := Option.isSome_iff_exists.1 (Option.isNone_eq_false_iff.1 goesOn)
              rw [also]
              exact .nil
          | none =>
              rw [ended] at goesOn
              rw [Option.isNone_iff_eq_none.1 goesOn]
              exact inductionHypothesis _ _

private theorem stopped_renamed {left right : List (Moment σ)}
    (related : List.Forall₂ (Moment.Renamed rename) left right) :
    ∀ state : Scheduler σ,
      stopped (state.renamed rename) right = (stopped state left).renamed rename := by
  induction related with
  | nil => exact fun _ => rfl
  | @cons first twin rest others same _ inductionHypothesis =>
      intro state
      have after : twin.after = first.after.renamed rename := same.result.after
      have later := inductionHypothesis first.after
      rw [← after] at later
      exact later

/-- Replacing the locks of a program changes neither what comes of an event nor the state after
it, but for the names of the locks, and the source is asked the same questions. -/
theorem lock_numbers_irrelevant (injective : Function.Injective rename) (program : EventProgram)
    (source : σ) (maxDecisions : Nat) :
    List.Forall₂ (Moment.Renamed rename) (program.moments source maxDecisions)
        ((program.renamed rename).moments source maxDecisions) ∧
      ((program.renamed rename).run (Questioned.ofSource source) maxDecisions).final.source.questions =
        (program.run (Questioned.ofSource source) maxDecisions).final.source.questions := by
  have related : ∀ {τ : Type} [DecisionSource τ] (source : τ),
      List.Forall₂ (Moment.Renamed rename) (program.moments source maxDecisions)
        ((program.renamed rename).moments source maxDecisions) := by
    intro τ _ source
    unfold moments
    rw [steps_renamed]
    exact momentsWithin_renamed injective program.steps program _
  refine ⟨related source, ?_⟩
  have stopped := stopped_renamed (related (Questioned.ofSource source))
    ((Scheduler.fresh (Questioned.ofSource source) maxDecisions).begin rootHost).2
  have left : program.run (Questioned.ofSource source) maxDecisions = _ :=
    runWithin_eq_moments _ _ _
  have right : (program.renamed rename).run (Questioned.ofSource source) maxDecisions = _ :=
    runWithin_eq_moments _ _ _
  rw [left, right]
  exact congrArg (fun state => state.source.questions) stopped

/-- Two threads that enter two locks in opposite orders. -/
def crossing : EventProgram :=
  .ofLists [("main", [.announce, .act (.enter ⟨0⟩), .choose, .act (.enter ⟨1⟩)]),
    ("main.0", [.act (.enter ⟨1⟩), .act (.enter ⟨0⟩)])]

/-- Exchanging the two locks exchanges them in the deadlock that is reported. -/
theorem deadlock_of_crossing :
    let exchange : LockId → LockId := Equiv.swap ⟨0⟩ ⟨1⟩
    let source := Script.ofAnswers [.position 1]
    Function.Injective exchange ∧
      List.Forall₂ (Moment.Renamed exchange) (crossing.moments source 5)
        ((crossing.renamed exchange).moments source 5) ∧
      ((crossing.renamed exchange).run (Questioned.ofSource source) 5).final.source.questions =
        [⟨"main @ start", [.root, .child .root 0]⟩] ∧
      (crossing.run source 5).ending =
        .halted (.fault (.deadlock [⟨.root, some (.lock ⟨1⟩), none⟩,
          ⟨.child .root 0, some (.lock ⟨0⟩), none⟩])) := by
  intro exchange source
  have injective : Function.Injective exchange := (Equiv.swap _ _).injective
  obtain ⟨related, asked⟩ := lock_numbers_irrelevant injective crossing source 5
  refine ⟨injective, related, ?_, by decide +kernel⟩
  rw [asked]
  decide +kernel

end EventProgram

end ScheduleSearch
