import ScheduleSearch.Gate.Basic
import ScheduleSearch.Proofs.Scheduler.AnyActor

/-!
# Calls of the gate

A call of the gate is a value here, and so is what a host thread waits for that fell asleep in
one.  Whatever is called, and by whom: a failed gate stays as it is and refuses all but the
question for the caller's thread; a fault that a call returns is the one that is recorded; every
live thread keeps its bell, so that nobody waits for a turn that no bell announces; and a thread
that is known stays known.
-/

namespace ScheduleSearch

/-- A call of the gate by a host thread. -/
inductive GateCall where
  /-- The thread of the caller announces a child. -/
  | announce
  /-- The caller starts to carry `thread`. -/
  | started (thread : ThreadId)
  /-- The thread of the caller reaches its exit. -/
  | exit
  /-- The thread of the caller does something and waits for its turn. -/
  | act (action : Action)
  /-- The thread of the caller reads its interrupt flag. -/
  | readInterrupt (clear : Bool)
  /-- The caller asks for the thread that it carries. -/
  | current
  /-- The caller fails the execution. -/
  | abort (fault : Fault)
  /-- The thread of the caller reaches its exit, and the caller waits for the end. -/
  | finish
  deriving DecidableEq

namespace GateCall

/-- Whether the call reports an event of a thread, or asks for the thread. -/
def isEvent : GateCall → Bool
  | abort _ | finish => false
  | _ => true

end GateCall

/-- What a call returns that succeeds. -/
inductive GateReply where
  | done
  | thread (thread : ThreadId)
  | flag (isSet : Bool)
  deriving DecidableEq

/-- What a host thread waits for that sleeps in a call. -/
inductive Awaited where
  /-- The turn of the thread that it carries. -/
  | turn (thread : ThreadId)
  /-- The end of the execution. -/
  | quiescence
  deriving DecidableEq

def Answer.map {α β : Type} (change : α → β) : Answer α → Answer β
  | .returned outcome => .returned (outcome.map change)
  | .asleep => .asleep

def Served.map {σ α β : Type} (change : α → β) (served : Served σ α) : Served σ β where
  answer := served.answer.map change
  ring := served.ring
  gate := served.gate

private theorem Answer.map_eq_fault {α β : Type} {change : α → β} {answer : Answer α}
    {fault : Fault} (returned : answer.map change = .returned (.error (.fault fault))) :
    answer = .returned (.error (.fault fault)) := by
  match answer with
  | .asleep => cases returned
  | .returned (.ok value) => cases returned
  | .returned (.error halt) =>
      cases returned
      rfl

namespace Gate

variable {σ : Type} {gate : Gate σ} {fault : Fault}

/-- The call of a host thread. -/
def call (gate : Gate σ) (host : Host) [DecisionSource σ] : GateCall → Served σ GateReply
  | .announce => (gate.announce host).map .thread
  | .started thread => (gate.started host thread).map fun _ => .done
  | .exit => (gate.exit host).map fun _ => .done
  | .act action => (gate.act host action).map fun _ => .done
  | .readInterrupt clear => (gate.readInterrupt host clear).map .flag
  | .current => (gate.current host).map .thread
  | .abort fault => (gate.abort fault).map fun _ => .done
  | .finish => (gate.finish host).map fun _ => .done

/-- What a host thread finds that woke up in a call and looks again. -/
def look (gate : Gate σ) : Awaited → Answer Unit
  | .turn thread =>
      if gate.failure.isSome then .returned (.error (.fault .aborted))
      else if gate.model.threads.isRunning thread then .returned (.ok ())
      else .asleep
  | .quiescence => gate.awaitEnd

/-- A host thread that has a bell to wait for does no more than look. -/
theorem awaitTurn_of_bell {thread : ThreadId} (bell : gate.bells.contains thread = true) :
    gate.awaitTurn thread = gate.look (.turn thread) := by
  rw [awaitTurn, bell]
  rfl

private theorem awaitTurn_ne_error {thread : ThreadId} (unfailed : gate.failure = none)
    (bell : gate.bells.contains thread = true) (halt : Halt) :
    gate.awaitTurn thread ≠ .returned (.error halt) := by
  rw [awaitTurn_of_bell bell, look, unfailed]
  dsimp only [Option.isSome_none]
  rw [if_neg Bool.false_ne_true]
  split
  · nofun
  · nofun

private theorem latch_of_failed (failed : gate.failure = some fault) (other : Fault) :
    gate.latch other = gate := by
  rw [latch, failed, Option.getD_some, ← failed]

theorem serve_of_failed {α : Type} (failed : gate.failure = some fault) (host : Host)
    (effect : ThreadId → Served σ α) : gate.serve host effect = gate.refused := by
  rw [serve, failed]
  rfl

private theorem current_of_failed (failed : gate.failure = some fault) (host : Host) :
    (gate.current host).gate = gate := by
  rw [current]
  split
  · rfl
  · exact latch_of_failed failed _

theorem awaitEnd_of_failed (failed : gate.failure = some fault) :
    gate.awaitEnd = .returned (.error (.fault fault)) := by
  rw [awaitEnd, failed]

variable [DecisionSource σ]

private theorem started_of_failed (failed : gate.failure = some fault) (host : Host)
    (thread : ThreadId) : gate.started host thread = gate.refused := by
  rw [started, failed]
  rfl

private theorem finish_of_failed (failed : gate.failure = some fault) (host : Host) :
    gate.finish host = { answer := gate.awaitEnd, ring := .nobody, gate := gate } := by
  rw [finish, failed]
  rfl

/-- No call changes a failed gate. -/
theorem gate_call_of_failed (failed : gate.failure = some fault) (host : Host)
    (call : GateCall) : (gate.call host call).gate = gate := by
  match call with
  | .announce => rw [Gate.call, announce, serve_of_failed failed]; rfl
  | .started thread => exact congrArg Served.gate (started_of_failed failed host thread)
  | .exit => rw [Gate.call, exit, serve_of_failed failed]; rfl
  | .act action => rw [Gate.call, act, serve_of_failed failed]; rfl
  | .readInterrupt clear => rw [Gate.call, readInterrupt, serve_of_failed failed]; rfl
  | .current => exact current_of_failed failed host
  | .abort other => exact latch_of_failed failed other
  | .finish => exact congrArg Served.gate (finish_of_failed failed host)

/-- A failed gate refuses every event. -/
theorem answer_call_of_failed (failed : gate.failure = some fault) (host : Host)
    {call : GateCall} (event : call.isEvent = true) (notQuestion : call ≠ .current) :
    (gate.call host call).answer = .returned (.error (.fault .aborted)) := by
  match call with
  | .announce => rw [Gate.call, announce, serve_of_failed failed]; rfl
  | .started thread => rw [Gate.call, started_of_failed failed]; rfl
  | .exit => rw [Gate.call, exit, serve_of_failed failed]; rfl
  | .act action => rw [Gate.call, act, serve_of_failed failed]; rfl
  | .readInterrupt clear => rw [Gate.call, readInterrupt, serve_of_failed failed]; rfl
  | .current => exact absurd rfl notQuestion
  | .abort other => cases event
  | .finish => cases event

/-- A failed gate tells whoever ends the execution why it failed. -/
theorem answer_finish_of_failed (failed : gate.failure = some fault) (host : Host) :
    (gate.call host .finish).answer = .returned (.error (.fault fault)) := by
  rw [Gate.call, finish_of_failed failed]
  change Answer.map _ gate.awaitEnd = _
  rw [awaitEnd_of_failed failed]
  rfl

/-- Every live thread has a bell. -/
def Belled (gate : Gate σ) : Prop :=
  ∀ thread, gate.model.isLive thread = true → gate.bells.contains thread = true

omit [DecisionSource σ] in
theorem belled_begun (source : σ) (maxDecisions : Nat) (host : Host) :
    ((fresh source maxDecisions).begin host).gate.Belled := by
  intro thread live
  change (KeySet.add Table.empty ThreadId.root).contains thread = true
  change (((Scheduler.fresh source maxDecisions).begin host).2.isLive thread) = true at live
  rw [Scheduler.isLive_iff, Scheduler.state?_begun] at live
  obtain ⟨run, found⟩ := live
  split at found
  next same => exact KeySet.contains_add.2 (Or.inl (ThreadId.compare_eq_iff.2 same))
  next => cases found

/-- After a call: the gate has a bell for every live thread if it had one before, threads stay
known, and a fault that was returned is the one that is recorded. -/
structure Kept {α : Type} (gate : Gate σ) (served : Served σ α) : Prop where
  belled : served.gate.Belled
  known : ∀ thread, gate.model.Known thread → served.gate.model.Known thread
  recorded : ∀ fault, served.answer = .returned (.error (.fault fault)) →
    served.gate.failure = some (gate.failure.getD fault)

omit [DecisionSource σ] in
private theorem Kept.map {α β : Type} {served : Served σ α} (kept : gate.Kept served)
    (change : α → β) :
    gate.Kept (served.map change) where
  belled := kept.belled
  known := kept.known
  recorded := fun fault returned => kept.recorded fault (Answer.map_eq_fault returned)

omit [DecisionSource σ] in
private theorem kept_refused {α : Type} (failed : gate.failure = some fault)
    (belled : gate.Belled) :
    gate.Kept (gate.refused : Served σ α) where
  belled := belled
  known := fun _ known => known
  recorded := by
    rintro other -
    change gate.failure = _
    rw [failed]
    rfl

omit [DecisionSource σ] in
/-- A call that fails the execution after its effect on model and bells. -/
private theorem kept_failing {α : Type} {after : Gate σ} (belled : after.Belled)
    (known : ∀ thread, gate.model.Known thread → after.model.Known thread)
    (failure : after.failure = gate.failure) (fault : Fault) :
    gate.Kept (after.failing fault : Served σ α) where
  belled := belled
  known := known
  recorded := by
    intro other returned
    cases returned
    exact congrArg (fun recorded => some (Option.getD recorded fault)) failure

omit [DecisionSource σ] in
private theorem kept_returning {α : Type} (belled : gate.Belled) (value : α) :
    gate.Kept (returning value gate) where
  belled := belled
  known := fun _ known => known
  recorded := nofun

omit [DecisionSource σ] in
private theorem kept_serve {α : Type} (belled : gate.Belled) (host : Host)
    {effect : ThreadId → Served σ α}
    (served : ∀ me, gate.failure = none → gate.Kept (effect me)) :
    gate.Kept (gate.serve host effect) := by
  rw [serve]
  cases failed : gate.failure with
  | some fault => exact kept_refused failed belled
  | none =>
      dsimp only [Option.isSome_none]
      cases gate.caller? host with
      | none => exact kept_failing belled (fun _ known => known) rfl _
      | some me => exact served me failed

omit [DecisionSource σ] in
private theorem kept_conclude {α β : Type} {before : Gate σ} {effect : Outcome α × Scheduler σ}
    {succeed : α → Gate σ → Served σ β} (failure : before.failure = gate.failure)
    (belled : ({ before with model := effect.2 } : Gate σ).Belled)
    (known : ∀ thread, gate.model.Known thread → effect.2.Known thread)
    (succeeded : ∀ value, effect.1 = .ok value →
      gate.Kept (succeed value { before with model := effect.2 })) :
    gate.Kept (before.conclude effect succeed) := by
  obtain ⟨outcome, after⟩ := effect
  match outcome with
  | .ok value => exact succeeded value rfl
  | .error (.fault fault) => exact kept_failing belled known failure fault
  | .error (.violation violation) => exact ⟨belled, known, nofun⟩

end Gate

/-! ## Calls and events -/

namespace Scheduler

variable {σ : Type} [DecisionSource σ]

theorem step_act (state : Scheduler σ) (actor : ThreadId) (action : Action) :
    state.step actor (.act action) =
      ((state.ifLive actor (state.perform actor action)).1.map .schedule,
        (state.ifLive actor (state.perform actor action)).2) := by
  rw [step, ifLive, ifLive]
  split <;> rfl

theorem step_exit (state : Scheduler σ) (actor : ThreadId) :
    state.step actor .exit =
      ((state.ifLive actor (state.exit actor)).1.map .schedule,
        (state.ifLive actor (state.exit actor)).2) := by
  rw [step, ifLive, ifLive]
  split <;> rfl

theorem step_announce (state : Scheduler σ) (actor : ThreadId) :
    state.step actor .announce =
      ((state.ifLive actor (state.announce actor)).1.map .announced,
        (state.ifLive actor (state.announce actor)).2) := by
  rw [step, ifLive, ifLive]
  split <;> rfl

private theorem isLive_act (state : Scheduler σ) (actor : ThreadId) (action : Action)
    (thread : ThreadId) :
    (state.step actor (.act action)).2.isLive thread = state.isLive thread := by
  by_cases live : state.isLive actor = true
  · rw [Bool.eq_iff_iff]
    exact isLive_step live _ thread
  · rw [step, ifLive, if_neg live]

end Scheduler

namespace Gate

variable {σ : Type} [DecisionSource σ] {gate : Gate σ}

omit [DecisionSource σ] in
private theorem kept_announce (belled : gate.Belled) (host : Host) :
    gate.Kept (gate.announce host) := by
  apply kept_serve belled
  intro me _
  by_cases live : gate.model.isLive me = true
  · rw [Scheduler.ifLive, if_pos live, Scheduler.announce_eq]
    constructor
    case belled =>
      intro thread alive
      apply KeySet.contains_add.2
      rw [ThreadId.compare_eq_iff]
      rcases (Scheduler.isLive_announce gate.model me thread).1 alive with same | before
      · exact Or.inl same
      · exact Or.inr (belled thread before)
    case known =>
      intro thread known
      exact (Scheduler.known_announce gate.model me thread).2 (Or.inr known)
    case recorded =>
      intro fault returned
      cases returned
  · rw [Scheduler.ifLive, if_neg live]
    exact kept_failing belled (fun _ known => known) rfl _

private theorem kept_started (belled : gate.Belled) (host : Host) (thread : ThreadId) :
    gate.Kept (gate.started host thread) := by
  rw [started]
  cases failed : gate.failure with
  | some fault => exact kept_refused failed belled
  | none =>
      dsimp only [Option.isSome_none]
      rw [Scheduler.step]
      by_cases live : gate.model.isLive thread = true
      · rw [Scheduler.ifLive, if_pos live]
        refine ⟨belled, fun _ known => known, ?_⟩
        intro fault returned
        exact absurd returned (awaitTurn_ne_error failed (belled thread live) _)
      · rw [Scheduler.ifLive, if_neg live]
        exact kept_failing belled (fun _ known => known) rfl _

private theorem kept_exit (belled : gate.Belled) (host : Host) : gate.Kept (gate.exit host) := by
  apply kept_serve belled
  intro me _
  have effect := Scheduler.step_exit gate.model me
  have left : ({ gate with
      bells := gate.bells.erase me
      model := (gate.model.ifLive me (gate.model.exit me)).2 } : Gate σ).Belled := by
    intro thread live
    change (gate.model.ifLive me (gate.model.exit me)).2.isLive thread = true at live
    rw [← congrArg Prod.snd effect] at live
    have other : thread.lineage ≠ me.lineage ∧ gate.model.isLive thread = true := by
      by_cases alive : gate.model.isLive me = true
      · exact (Scheduler.isLive_step alive .exit thread).1 live
      · rw [Scheduler.step, Scheduler.ifLive, if_neg alive] at live
        refine ⟨fun same => alive ?_, live⟩
        exact (Scheduler.isLive_congr gate.model same).symm.trans live
    obtain ⟨stored, found⟩ := Table.contains_iff.1 (belled thread other.2)
    apply Table.contains_iff.2
    refine ⟨stored, ?_⟩
    rw [Table.get?_erase, if_neg fun same => other.1 (ThreadId.compare_eq_iff.1 same)]
    exact found
  have known : ∀ thread, gate.model.Known thread →
      (gate.model.ifLive me (gate.model.exit me)).2.Known thread := by
    intro thread known
    rw [← congrArg Prod.snd effect]
    exact known.step me .exit
  apply kept_conclude
  · rfl
  · exact left
  · exact known
  · intro schedule _
    refine ⟨left, known, ?_⟩
    intro fault returned
    cases returned

private theorem kept_act (belled : gate.Belled) (host : Host) (action : Action) :
    gate.Kept (gate.act host action) := by
  apply kept_serve belled
  intro me unfailed
  have effect := Scheduler.step_act gate.model me action
  have live : ∀ thread, (gate.model.ifLive me (gate.model.perform me action)).2.isLive thread =
      gate.model.isLive thread := by
    intro thread
    rw [← Scheduler.isLive_act gate.model me action thread, effect]
  have acted : ({ gate with
      model := (gate.model.ifLive me (gate.model.perform me action)).2 } : Gate σ).Belled := by
    intro thread alive
    exact belled thread ((live thread).symm.trans alive)
  have known : ∀ thread, gate.model.Known thread →
      (gate.model.ifLive me (gate.model.perform me action)).2.Known thread := by
    intro thread known
    rw [← congrArg Prod.snd effect]
    exact known.step me _
  apply kept_conclude rfl acted known
  intro schedule succeeded
  refine ⟨acted, known, ?_⟩
  intro fault returned
  have alive : gate.model.isLive me = true := by
    by_contra absent
    rw [Scheduler.ifLive, if_neg absent] at succeeded
    cases succeeded
  apply absurd returned
  apply awaitTurn_ne_error
  · exact unfailed
  · exact belled me alive

omit [DecisionSource σ] in
private theorem kept_readInterrupt (belled : gate.Belled) (host : Host) (clear : Bool) :
    gate.Kept (gate.readInterrupt host clear) := by
  apply kept_serve belled
  intro me _
  have read : ∀ thread, (gate.model.readInterrupt me clear).2.isLive thread =
      gate.model.isLive thread := by
    intro thread
    cases clear <;> rfl
  dsimp only
  by_cases live : gate.model.isLive me = true
  · rw [Scheduler.ifLive, if_pos live]
    refine ⟨fun thread alive => belled thread ((read thread).symm.trans alive), ?_, ?_⟩
    · intro thread known
      cases clear <;> exact known
    · intro fault returned
      cases returned
  · rw [Scheduler.ifLive, if_neg live]
    exact kept_failing belled (fun _ known => known) rfl _

omit [DecisionSource σ] in
private theorem kept_current (belled : gate.Belled) (host : Host) :
    gate.Kept (gate.current host) := by
  rw [current]
  cases gate.caller? host with
  | none => exact kept_failing belled (fun _ known => known) rfl _
  | some me => exact kept_returning belled me

private theorem kept_finish (belled : gate.Belled) (host : Host) :
    gate.Kept (gate.finish host) := by
  rw [finish]
  cases failed : gate.failure with
  | some fault =>
      dsimp only [Option.isSome_some]
      refine ⟨belled, fun _ known => known, ?_⟩
      intro other returned
      change gate.awaitEnd = _ at returned
      rw [awaitEnd_of_failed failed] at returned
      cases returned
      change gate.failure = _
      rw [failed]
      rfl
  | none =>
      dsimp only [Option.isSome_none]
      have kept := kept_exit belled host
      rw [if_neg Bool.false_ne_true, finishing]
      split
      · exact kept
      · refine ⟨kept.belled, kept.known, ?_⟩
        intro fault returned
        change (gate.exit host).gate.awaitEnd = _ at returned
        rw [awaitEnd] at returned
        rw [failed]
        split at returned
        next recorded found =>
          cases returned
          exact found
        next => split at returned <;> cases returned

/-- Every call keeps the bells and the known threads and records the fault that it returns. -/
theorem kept_call (belled : gate.Belled) (host : Host) (call : GateCall) :
    gate.Kept (gate.call host call) := by
  cases call with
  | announce => exact (kept_announce belled host).map _
  | started thread => exact (kept_started belled host thread).map _
  | exit => exact (kept_exit belled host).map _
  | act action => exact (kept_act belled host action).map _
  | readInterrupt clear => exact (kept_readInterrupt belled host clear).map _
  | current => exact (kept_current belled host).map _
  | abort fault => exact ⟨belled, fun _ known => known, nofun⟩
  | finish => exact (kept_finish belled host).map _

end Gate

end ScheduleSearch
