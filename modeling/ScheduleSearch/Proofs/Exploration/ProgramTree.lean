import ScheduleSearch.Proofs.Decision.Sequence
import ScheduleSearch.Proofs.Exploration.Progress
import ScheduleSearch.Proofs.Scheduler.Likeness

/-!
# The decision tree of a program of events

What a program of events does depends on the source of decisions only through its answers, so
all its runs together form one decision tree.  `EventProgram.tree` is this tree, built from the
scheduler without any source; where a source leads it to a leaf, the run under this source
applies the events of the leaf and ends as the leaf says.
-/

namespace ScheduleSearch

namespace Scheduler

variable {σ : Type}

/-- The question which of the runnable threads runs next. -/
def turn (state : Scheduler σ) (label : String) (someone : state.threads.runnable ≠ []) :
    Choice where
  label := label
  options := state.threads.runnable
  offered := someone
  distinct := state.threads.threadsWhere_distinct RunState.isRunnable

/-- What can come of asking. -/
def askTree (state : Scheduler σ) (choice : Choice) :
    DecisionProgram (Outcome ThreadId × Scheduler σ) :=
  let counted := { state with decisions := state.decisions + 1 }
  if counted.decisions > counted.maxDecisions then
    .ended (.error (.fault (.decisionLimitExceeded counted.maxDecisions)), counted)
  else .decision choice fun position => .ended (.ok (choice.options.get position), counted)

/-- What can come of selecting a thread. -/
def selectTree (state : Scheduler σ) (choice : Choice) :
    DecisionProgram (Outcome ThreadId × Scheduler σ) :=
  match choice.options with
  | [only] => .ended (.ok only, state)
  | _ => state.askTree choice

/-- What can come of a selected thread, if `again` says so for a choice that is repeated. -/
def promoteTree (again : Scheduler σ → DecisionProgram (Outcome Schedule × Scheduler σ)) :
    Outcome ThreadId × Scheduler σ → DecisionProgram (Outcome Schedule × Scheduler σ)
  | (.error halt, asked) => .ended (.error halt, asked)
  | (.ok next, asked) =>
      match asked.promote next with
      | (.error halt, halted) => .ended (.error halt, halted)
      | (.ok true, resumed) => .ended (.ok (.resume next), resumed)
      | (.ok false, demoted) => again demoted

/-- What can come of a choice in at most the given number of rounds. -/
def pickTreeWithin : Nat → Scheduler σ → String →
    DecisionProgram (Outcome Schedule × Scheduler σ)
  | 0, state, _ => .ended (state.stalled, state)
  | rounds + 1, state, label =>
      if someone : state.threads.runnable ≠ [] then
        (state.selectTree (state.turn label someone)).bind
          (promoteTree fun demoted => pickTreeWithin rounds demoted label)
      else .ended (state.stalled, state)

end Scheduler

/-- What can come of an event after its part before the choice. -/
def Prepared.tree {σ : Type} : Prepared σ → DecisionProgram (Outcome Reply × Scheduler σ)
  | settled outcome state => .ended (outcome, state)
  | choosing label state =>
      (Scheduler.pickTreeWithin state.threads.runnable.length state label).map
        fun (outcome, after) => (outcome.map .schedule, after)

/-- What can come of an event of `actor`. -/
def Scheduler.stepTree {σ : Type} (state : Scheduler σ) (actor : ThreadId) (event : Event) :
    DecisionProgram (Outcome Reply × Scheduler σ) :=
  if state.isLive actor then (state.prepare actor event).tree
  else .ended (.error (untracked actor), state)

namespace EventProgram

variable {σ : Type}

/-- What can come of a program within the given number of events: the events that are applied,
how the run ends and the last state. -/
def treeWithin : Nat → EventProgram → Scheduler σ →
    DecisionProgram ((History × Ending) × Scheduler σ)
  | 0, _, state => .ended (([], .unfinished), state)
  | steps + 1, program, state =>
      match state.running? with
      | none => .ended (([], .unfinished), state)
      | some actor =>
          let (event, rest) := program.next actor
          (state.stepTree actor event).bind fun (outcome, after) =>
            match Ending.of? outcome with
            | some ending => .ended (([(actor, event)], ending), after)
            | none =>
                (treeWithin steps rest after).map fun (shown, final) =>
                  (((actor, event) :: shown.1, shown.2), final)

/-- All runs of a program from the start. -/
def tree (program : EventProgram) (maxDecisions : Nat) : DecisionProgram (History × Ending) :=
  (treeWithin program.steps program
    ((Scheduler.fresh () maxDecisions).begin rootHost).2).map fun (shown, _) => shown

end EventProgram

section Following

variable {σ τ : Type} [DecisionSource τ] {left : Scheduler σ} {source : τ} {right : Scheduler τ}

/-- Where the source leads the program, an execution with this result and last state arrives:
the results look the same through `view`, and the states are alike. -/
def Follows {α β : Type} (view : α → β) (program : DecisionProgram (α × Scheduler σ))
    (source : τ) (result : α × Scheduler τ) : Prop :=
  ∀ leaf after, program.Leads source leaf after →
    view leaf.outcome.1 = view result.1 ∧ leaf.outcome.2.Alike after result.2

private theorem Follows.ended {α β : Type} {view : α → β} {outcome result : α}
    (same : view outcome = view result) (alike : left.Alike source right) :
    Follows view (.ended (outcome, left)) source (result, right) := by
  intro leaf after leads
  cases leads with
  | ended => exact ⟨same, alike⟩

namespace Scheduler

private theorem ask_of_offered {state : Scheduler τ} {question : Question} {chosen : ThreadId}
    {asked : τ} (within : state.decisions + 1 ≤ state.maxDecisions)
    (answered : DecisionSource.decide state.source question = (.ok chosen, asked))
    (offered : question.options.any (fun option => option.same chosen) = true) :
    state.ask question =
      (.ok chosen, { state with decisions := state.decisions + 1, source := asked }) := by
  unfold ask
  dsimp only
  rw [if_neg (Nat.not_lt.2 within), answered]
  exact if_pos offered

/-- Answers are compared by lineage: a source may call an offered thread by another name. -/
theorem Alike.follows_ask (alike : left.Alike source right) (choice : Choice) :
    Follows (Except.map ThreadId.lineage) (left.askTree choice) source
      (right.ask choice.toQuestion) := by
  obtain ⟨monitors, rfl, alike⟩ := alike
  have counted : ∀ asked : τ, { left with decisions := left.decisions + 1 }.Alike asked
      { left.become monitors source with decisions := left.decisions + 1, source := asked } :=
    fun _ => ⟨monitors, rfl, alike⟩
  by_cases exceeded : left.decisions + 1 > left.maxDecisions
  · have effect : (left.become monitors source).ask choice.toQuestion =
        (.error (.fault (.decisionLimitExceeded left.maxDecisions)),
          { left.become monitors source with decisions := left.decisions + 1 }) :=
      if_pos exceeded
    have shape : left.askTree choice =
        .ended (.error (.fault (.decisionLimitExceeded left.maxDecisions)),
          { left with decisions := left.decisions + 1 }) :=
      if_pos exceeded
    rw [effect, shape]
    exact Follows.ended rfl (counted source)
  · intro leaf after leads
    have shape : left.askTree choice =
        .decision choice fun position =>
          .ended (.ok (choice.options.get position),
            { left with decisions := left.decisions + 1 }) :=
      if_neg exceeded
    rw [shape] at leads
    cases leads with
    | @decision _ _ _ asked _ thread position _ answered chosen rest =>
        have offered : choice.options.any (fun option => option.same thread) = true :=
          List.any_eq_true.2 ⟨_, List.getElem_mem position.isLt, chosen⟩
        have effect : (left.become monitors source).ask choice.toQuestion =
            (.ok thread,
              { left.become monitors source with
                decisions := left.decisions + 1
                source := asked }) :=
          ask_of_offered (Nat.not_lt.1 exceeded) answered offered
        rw [effect]
        cases rest with
        | ended =>
            refine ⟨?_, counted _⟩
            exact congrArg Except.ok ((ThreadId.same_iff_lineage _ _).1 chosen)

private theorem Alike.follows_select (alike : left.Alike source right) (choice : Choice) :
    Follows (Except.map ThreadId.lineage) (left.selectTree choice) source
      (right.select choice.label choice.options) := by
  have asks := alike.follows_ask choice
  change Follows _ _ _ (right.ask ⟨choice.label, choice.options⟩) at asks
  unfold selectTree select
  cases shape : choice.options with
  | nil =>
      rw [shape] at asks
      exact asks
  | cons first rest =>
      cases rest with
      | nil => exact Follows.ended rfl alike
      | cons second others =>
          rw [shape] at asks
          exact asks

/-- What is seen of a choice: how it ends the run.  The name of the chosen thread is not. -/
def endingOf (outcome : Outcome Schedule) : Option Ending :=
  Ending.of? (outcome.map .schedule)

/-- The same thread is let run on both sides, and the choice is repeated on both or neither. -/
theorem Alike.follows_promote (alike : left.Alike source right)
    {again : Scheduler σ → DecisionProgram (Outcome Schedule × Scheduler σ)}
    {repeated : Scheduler τ → Outcome Schedule × Scheduler τ}
    (follows : ∀ {left : Scheduler σ} {right : Scheduler τ}, left.Alike source right →
      Follows endingOf (again left) source (repeated right))
    {outcome answer : Outcome ThreadId}
    (same : outcome.map ThreadId.lineage = answer.map ThreadId.lineage) :
    Follows endingOf (promoteTree again (outcome, left)) source
      (match (answer, right) with
      | (.error halt, asked) => (.error halt, asked)
      | (.ok next, asked) =>
          match asked.promote next with
          | (.error halt, halted) => (.error halt, halted)
          | (.ok true, resumed) => (.ok (.resume next), resumed)
          | (.ok false, demoted) => repeated demoted) := by
  cases outcome with
  | error halt =>
      cases answer with
      | error other =>
          obtain rfl : halt = other := Except.error.inj same
          exact Follows.ended rfl alike
      | ok twin => cases same
  | ok next =>
      cases answer with
      | error other => cases same
      | ok twin =>
          obtain ⟨promoted, after⟩ := alike.promote (Except.ok.inj same)
          unfold promoteTree
          dsimp only
          generalize left.promote next = effect at promoted after ⊢
          generalize right.promote twin = twinEffect at promoted after ⊢
          obtain ⟨verdict, reached⟩ := effect
          obtain ⟨twinVerdict, twinReached⟩ := twinEffect
          dsimp only at promoted after
          rw [← promoted]
          match verdict with
          | .error halt => exact Follows.ended rfl after
          | .ok true => exact Follows.ended rfl after
          | .ok false => exact follows after

private theorem Alike.follows_pickWithin (label : String) (rounds : Nat) :
    ∀ {left : Scheduler σ} {source : τ} {right : Scheduler τ}, left.Alike source right →
      Follows endingOf (pickTreeWithin rounds left label) source
        (pickWithin rounds right label) := by
  induction rounds with
  | zero =>
      intro left source right alike
      unfold pickTreeWithin pickWithin
      rw [alike.stalled]
      exact Follows.ended rfl alike
  | succ rounds inductionHypothesis =>
      intro left source right alike
      unfold pickTreeWithin pickWithin
      split
      next someone =>
        have follows := alike.follows_select (left.turn label someone)
        change Follows _ _ _ (right.select label left.threads.runnable) at follows
        rw [alike.threads] at someone follows
        intro leaf after leads
        obtain ⟨⟨trace, outcome, asked⟩, between, second, early, late, rfl⟩ := leads.of_bind
        obtain ⟨same, alikeAsked⟩ := follows _ _ early
        split
        next none => exact absurd none someone
        next =>
          generalize right.select label right.threads.runnable = selected at same alikeAsked ⊢
          obtain ⟨answer, answered⟩ := selected
          exact alikeAsked.follows_promote inductionHypothesis same second after late
      next nobody =>
        have none : right.threads.runnable = [] := by
          rw [← alike.threads]
          exact Decidable.not_not.1 nobody
        rw [none, alike.stalled]
        exact Follows.ended rfl alike

end Scheduler

private theorem Prepared.Alike.follows {prepared : Prepared σ} {twin : Prepared τ}
    (alike : prepared.Alike source twin) :
    Follows Ending.of? prepared.tree source twin.complete := by
  cases alike with
  | settled outcome alike => exact Follows.ended rfl alike
  | choosing label alike =>
      intro leaf after leads
      obtain ⟨first, early, rfl⟩ := leads.of_map
      rw [alike.threads] at early
      exact alike.follows_pickWithin label _ first after early

theorem Scheduler.Alike.follows_step (alike : left.Alike source right) (actor : ThreadId)
    (event : Event) :
    Follows Ending.of? (left.stepTree actor event) source (right.step actor event) := by
  unfold stepTree step ifLive isLive
  rw [alike.threads, apply_eq_complete]
  split
  · exact (alike.prepare actor event).follows
  · exact Follows.ended rfl alike

namespace EventProgram

/-- A run goes where its source leads in the tree. -/
theorem follows_runWithin (steps : Nat) :
    ∀ (program : EventProgram) {left : Scheduler σ} {source : τ} {right : Scheduler τ},
      left.Alike source right →
        Follows id (treeWithin steps program left) source
          (((runWithin steps program right).history, (runWithin steps program right).ending),
            (runWithin steps program right).final) := by
  induction steps with
  | zero =>
      intro program left source right alike
      exact Follows.ended rfl alike
  | succ steps inductionHypothesis =>
      intro program left source right alike
      unfold treeWithin
      have running : left.running? = right.running? := by
        unfold Scheduler.running?
        rw [alike.threads]
      rw [running]
      cases runs : right.running? with
      | none =>
          rw [runWithin, runs]
          exact Follows.ended rfl alike
      | some actor =>
          rw [runWithin_succ steps program runs]
          dsimp only
          intro leaf after leads
          obtain ⟨⟨trace, outcome, reached⟩, between, second, early, late, rfl⟩ := leads.of_bind
          obtain ⟨same, alikeReached⟩ := alike.follows_step actor _ _ _ early
          dsimp only at same late
          rw [same] at late
          split
          next ending ended =>
            rw [ended] at late
            cases late with
            | ended => exact ⟨rfl, alikeReached⟩
          next ongoing =>
            rw [ongoing] at late
            obtain ⟨rest, last, rfl⟩ := late.of_map
            obtain ⟨shown, final⟩ := inductionHypothesis _ alikeReached rest after last
            have longer := congrArg
              (fun shown : History × Ending =>
                ((actor, (program.next actor).1) :: shown.1, shown.2)) shown
            exact ⟨longer, final⟩

/-- Where a source leads in the tree of a program, the run under this source ends. -/
theorem run_of_leads (program : EventProgram) (maxDecisions : Nat) {source after : τ}
    {leaf : Leaf (History × Ending)}
    (leads : (program.tree maxDecisions).Leads source leaf after) :
    (program.run source maxDecisions).history = leaf.outcome.1 ∧
      (program.run source maxDecisions).ending = leaf.outcome.2 ∧
      (program.run source maxDecisions).final.source = after := by
  obtain ⟨first, early, rfl⟩ := leads.of_map
  have alike : ((Scheduler.fresh () maxDecisions).begin rootHost).2.Alike source
      ((Scheduler.fresh source maxDecisions).begin rootHost).2 :=
    ⟨_, rfl, .refl _⟩
  obtain ⟨shown, monitors, final, -⟩ :=
    follows_runWithin program.steps program alike first after early
  exact ⟨(congrArg Prod.fst shown).symm, (congrArg Prod.snd shown).symm,
    congrArg Scheduler.source final⟩

end EventProgram

end Following

end ScheduleSearch
