import ScheduleSearch.Proofs.Gate.Calls
import ScheduleSearch.Proofs.Scheduler.Schedules
import ScheduleSearch.Proofs.Thread.Hosts

/-!
# Calls of the running thread

In an execution that has not failed the gate is ready for the host thread that carries the
running thread: its calls are events of that thread, and each of them does to the model what the
event does and to the bells what comes and goes with the thread.  The gate stays ready until a
call fails.  A host thread that carries no thread fails the execution with any call but the one
by which it starts to carry one.
-/

namespace ScheduleSearch

namespace Registry

/-- A host thread is the one that the thread it carries is carried by. -/
def Matched (registry : Registry) : Prop :=
  ∀ host thread, registry.threadOf? host = some thread → registry.hostOf? thread = some host

variable {registry : Registry}

private theorem Matched.bind (matched : registry.Matched) (host : Host) {thread : ThreadId}
    (free : registry.hostOf? thread = none) : (registry.bind host thread).Matched := by
  intro other carried carries
  rw [threadOf?_bind] at carries
  rw [hostOf?_bind]
  split at carries
  next here =>
    obtain rfl := Option.some.inj carries
    rw [if_pos rfl, here]
  next =>
    have before := matched other carried carries
    rw [if_neg, before]
    intro same
    rw [registry.hostOf?_congr same, free] at before
    cases before

private theorem Matched.threadOf?_forget (matched : registry.Matched) {host : Host}
    {thread : ThreadId} (carries : registry.threadOf? host = some thread) (other : Host) :
    (registry.forget thread).2.threadOf? other =
      if other = host then none else registry.threadOf? other := by
  rw [forget_eq (matched host thread carries)]
  exact registry.threadOf?_without host other thread

private theorem Matched.forget (matched : registry.Matched) {host : Host} {thread : ThreadId}
    (carries : registry.threadOf? host = some thread) : (registry.forget thread).2.Matched := by
  intro other carried still
  rw [matched.threadOf?_forget carries] at still
  split at still
  next => cases still
  next different =>
    have before := matched other carried still
    rw [hostOf?_forget, if_neg]
    · exact before
    · intro same
      rw [registry.hostOf?_congr same, matched host thread carries] at before
      exact different (Option.some.inj before).symm

end Registry

namespace Gate

variable {σ : Type} {gate : Gate σ} {host : Host} {me : ThreadId}

/-- The execution has not failed, and what the gate keeps of it is in order. -/
structure Ready (gate : Gate σ) : Prop where
  unfailed : gate.failure = none
  coherent : gate.model.Coherent
  belled : gate.Belled
  matched : gate.model.registry.Matched
  carried : gate.model.Carried

theorem ready_begun (source : σ) (maxDecisions : Nat) (host : Host) :
    ((fresh source maxDecisions).begin host).gate.Ready where
  unfailed := rfl
  coherent := Scheduler.coherent_begun source maxDecisions host
  belled := belled_begun source maxDecisions host
  matched := by
    have nobody : Registry.empty.Matched := by
      intro other carried carries
      cases carries
    exact nobody.bind host rfl
  carried := Scheduler.carried_begun source maxDecisions host

/-- A thread that a host thread carries is live. -/
theorem Ready.live (ready : gate.Ready) (carries : gate.caller? host = some me) :
    gate.model.isLive me = true :=
  ready.carried me (Table.contains_iff.2 ⟨host, ready.matched host me carries⟩)

/-- Two host threads do not carry the same thread. -/
theorem Ready.carrier_unique (ready : gate.Ready) {first second : Host} {thread other : ThreadId}
    (firstCarries : gate.caller? first = some thread)
    (secondCarries : gate.caller? second = some other)
    (same : thread.lineage = other.lineage) : first = second := by
  have found := ready.matched first thread firstCarries
  rw [Registry.hostOf?_congr _ same, ready.matched second other secondCarries] at found
  exact (Option.some.inj found).symm

/-- Whether a thread may go on is all that a host thread finds that waits for its turn. -/
theorem look_turn_of_unfailed (unfailed : gate.failure = none) (thread : ThreadId) :
    gate.look (.turn thread) =
      if gate.model.threads.isRunning thread then .returned (.ok ()) else .asleep := by
  rw [look, unfailed]
  dsimp only [Option.isSome_none]
  rw [if_neg Bool.false_ne_true]

theorem awaitEnd_of_unfailed (unfailed : gate.failure = none) :
    gate.awaitEnd = if gate.model.isQuiescent then .returned (.ok ()) else .asleep := by
  rw [awaitEnd, unfailed]

variable [DecisionSource σ]

/-- The bells after an event of `actor`: a child that is announced gets one, and a thread that
reaches its exit loses its own. -/
def bellsAfter (gate : Gate σ) (actor : ThreadId) : Event → KeySet ThreadId
  | .announce => gate.bells.add (.child actor (gate.model.nextNumber actor))
  | .exit => gate.bells.erase actor
  | _ => gate.bells

/-- The gate after a call by which `actor` reports an event with success. -/
def reported (gate : Gate σ) (actor : ThreadId) (event : Event) : Gate σ :=
  { gate with model := (gate.model.step actor event).2, bells := gate.bellsAfter actor event }

/-- An event does to the registry what it notes of its own thread. -/
theorem registry_reported (ready : gate.Ready)
    (runs : gate.model.threads.state? me = some .running) (event : Event) :
    (gate.model.step me event).2.registry = (gate.model.noted me event).registry :=
  (ready.coherent.frame_step runs event).registry

/-- An exit takes the thread from its host thread. -/
theorem Ready.caller?_exit (ready : gate.Ready) (carries : gate.caller? host = some me)
    (runs : gate.model.threads.state? me = some .running) (other : Host) :
    (gate.reported me .exit).caller? other =
      if other = host then none else gate.caller? other := by
  have registry := registry_reported ready runs .exit
  change (gate.model.step me .exit).2.registry.threadOf? other = _
  rw [registry]
  exact ready.matched.threadOf?_forget carries other

/-- Other events leave alone who carries whom. -/
theorem Ready.caller?_reported (ready : gate.Ready)
    (runs : gate.model.threads.state? me = some .running) {event : Event}
    (notBirth : ∀ host, event ≠ .bind host) (notExit : event ≠ .exit) (other : Host) :
    (gate.reported me event).caller? other = gate.caller? other := by
  have registry := registry_reported ready runs event
  change (gate.model.step me event).2.registry.threadOf? other = _
  rw [registry]
  match event with
  | .announce => rfl
  | .bind host => exact absurd rfl (notBirth host)
  | .exit => exact absurd rfl notExit
  | .choose => rfl
  | .readInterrupt clear => rfl
  | .act action => cases action <;> rfl

/-- No event of the running thread changes what another host thread carries. -/
theorem Ready.caller?_other (ready : gate.Ready) (carries : gate.caller? host = some me)
    (runs : gate.model.threads.state? me = some .running) {event : Event}
    (notBirth : ∀ host, event ≠ .bind host) {other : Host} (different : other ≠ host) :
    (gate.reported me event).caller? other = gate.caller? other := by
  by_cases exits : event = .exit
  · rw [exits, ready.caller?_exit carries runs, if_neg different]
  · exact ready.caller?_reported runs notBirth exits other

/-- A live thread that no host thread carries is not affected by an event of the running one. -/
theorem Ready.free_reported (ready : gate.Ready) (carries : gate.caller? host = some me)
    (runs : gate.model.threads.state? me = some .running) {event : Event}
    (notBirth : ∀ host, event ≠ .bind host) {thread : ThreadId}
    (live : gate.model.isLive thread = true)
    (free : gate.model.registry.hostOf? thread = none) :
    (gate.model.step me event).2.isLive thread = true ∧
      (gate.model.step me event).2.registry.hostOf? thread = none := by
  have different : thread.lineage ≠ me.lineage := by
    intro same
    rw [Registry.hostOf?_congr _ same, ready.matched host me carries] at free
    cases free
  rw [Scheduler.isLive_step (ready.live carries), registry_reported ready runs event]
  match event with
  | .announce => exact ⟨Or.inr live, free⟩
  | .bind host => exact absurd rfl (notBirth host)
  | .exit =>
      refine ⟨⟨different, live⟩, (Registry.hostOf?_forget _ _ thread).trans ?_⟩
      rw [if_neg different]
      exact free
  | .choose => exact ⟨live, free⟩
  | .readInterrupt clear => exact ⟨live, free⟩
  | .act action => cases action <;> exact ⟨live, free⟩

private theorem Ready.matched_reported (ready : gate.Ready) (carries : gate.caller? host = some me)
    (runs : gate.model.threads.state? me = some .running) {event : Event}
    (notBirth : ∀ host, event ≠ .bind host) :
    (gate.model.step me event).2.registry.Matched := by
  rw [registry_reported ready runs event]
  match event with
  | .announce => exact ready.matched
  | .bind host => exact absurd rfl (notBirth host)
  | .exit => exact ready.matched.forget carries
  | .choose => exact ready.matched
  | .readInterrupt clear => exact ready.matched
  | .act action => cases action <;> exact ready.matched

private theorem Ready.belled_reported (ready : gate.Ready) (carries : gate.caller? host = some me)
    (event : Event) : (gate.reported me event).Belled := by
  intro thread live
  have live := (Scheduler.isLive_step (ready.live carries) event thread).1 live
  match event with
  | .announce =>
      apply KeySet.contains_add.2
      rw [ThreadId.compare_eq_iff]
      exact live.imp_right (ready.belled thread)
  | .exit =>
      apply KeySet.contains_erase.2
      exact ⟨mt ThreadId.compare_eq_iff.1 live.1, ready.belled thread live.2⟩
  | .bind _ => exact ready.belled thread live
  | .choose => exact ready.belled thread live
  | .readInterrupt _ => exact ready.belled thread live
  | .act _ => exact ready.belled thread live

/-- The gate stays ready as long as the running thread reports events with success. -/
theorem Ready.ready_reported (ready : gate.Ready) (carries : gate.caller? host = some me)
    (runs : gate.model.threads.state? me = some .running) {event : Event}
    (notBirth : ∀ host, event ≠ .bind host) : (gate.reported me event).Ready where
  unfailed := ready.unfailed
  coherent := (ready.coherent.reported runs event).1
  belled := ready.belled_reported carries event
  matched := ready.matched_reported carries runs notBirth
  carried := ready.carried.step ready.coherent runs event

omit [DecisionSource σ] in
private theorem Ready.serve (ready : gate.Ready) (carries : gate.caller? host = some me) {α : Type}
    (effect : ThreadId → Served σ α) : gate.serve host effect = effect me := by
  rw [Gate.serve, ready.unfailed, carries]
  rfl

/-- An event with an effect on the model is carried out, or the call fails. -/
theorem Ready.conclude (ready : gate.Ready)
    (runs : gate.model.threads.state? me = some .running) {event : Event} {α : Type}
    {effect : Outcome α × Scheduler σ} {reply : α → Reply}
    (stepped : gate.model.step me event = (effect.1.map reply, effect.2)) {before : Gate σ}
    {succeed : α → Gate σ → Served σ Unit}
    (passed : (before.conclude effect succeed).gate.failure = none) :
    ∃ value, (gate.model.step me event).1 = .ok (reply value) ∧
      before.conclude effect succeed =
        succeed value { before with model := (gate.model.step me event).2 } := by
  obtain ⟨outcome, after⟩ := effect
  have reported := ready.coherent.reported runs event
  rw [stepped] at reported ⊢
  match outcome with
  | .ok value => exact ⟨value, rfl, rfl⟩
  | .error (.fault fault) => cases passed
  | .error (.violation violation) => exact False.elim reported.2

/-- An action is an event of the thread, which goes on if it is running afterwards. -/
theorem Ready.act (ready : gate.Ready) (carries : gate.caller? host = some me)
    (runs : gate.model.threads.state? me = some .running) {action : Action}
    (passed : (gate.act host action).gate.failure = none) :
    ∃ schedule, (gate.model.step me (.act action)).1 = .ok (.schedule schedule) ∧
      gate.act host action =
        { answer := (gate.reported me (.act action)).look (.turn me)
          ring := gate.ringFor schedule
          gate := gate.reported me (.act action) } := by
  rw [Gate.act, ready.serve carries] at passed ⊢
  obtain ⟨schedule, succeeded, served⟩ :=
    ready.conclude runs (Scheduler.step_act gate.model me action) passed
  have bell : (gate.reported me (.act action)).bells.contains me = true :=
    ready.belled me (ready.live carries)
  refine ⟨schedule, succeeded, ?_⟩
  rw [served, ← awaitTurn_of_bell bell]
  rfl

/-- An exit takes away the bell of the thread. -/
theorem Ready.exit (ready : gate.Ready) (carries : gate.caller? host = some me)
    (runs : gate.model.threads.state? me = some .running)
    (passed : (gate.exit host).gate.failure = none) :
    ∃ schedule, (gate.model.step me .exit).1 = .ok (.schedule schedule) ∧
      gate.exit host =
        { answer := .returned (.ok ())
          ring := (gate.reported me .exit).ringFor schedule
          gate := gate.reported me .exit } := by
  rw [Gate.exit, ready.serve carries] at passed ⊢
  obtain ⟨schedule, succeeded, served⟩ :=
    ready.conclude runs (Scheduler.step_exit gate.model me) passed
  exact ⟨schedule, succeeded, served⟩

/-- To finish is to exit and to wait for the end. -/
theorem Ready.finish (ready : gate.Ready) (carries : gate.caller? host = some me)
    (runs : gate.model.threads.state? me = some .running)
    (passed : (gate.finish host).gate.failure = none) :
    ∃ schedule, (gate.model.step me .exit).1 = .ok (.schedule schedule) ∧
      gate.finish host =
        { answer := (gate.reported me .exit).awaitEnd
          ring := (gate.reported me .exit).ringFor schedule
          gate := gate.reported me .exit } := by
  have same : gate.finish host = finishing (gate.exit host) := by
    rw [Gate.finish, ready.unfailed]
    rfl
  have exits : (gate.exit host).gate.failure = none := by
    rw [same, finishing] at passed
    split at passed <;> exact passed
  obtain ⟨schedule, succeeded, served⟩ := ready.exit carries runs exits
  refine ⟨schedule, succeeded, ?_⟩
  rw [same, served]
  rfl

/-- An announced child gets a bell. -/
theorem Ready.announce (ready : gate.Ready) (carries : gate.caller? host = some me) :
    gate.announce host =
      { answer := .returned (.ok (.child me (gate.model.nextNumber me)))
        ring := .nobody
        gate := gate.reported me .announce } := by
  have live := ready.live carries
  rw [Gate.announce, ready.serve carries, Scheduler.ifLive, if_pos live, Scheduler.announce_eq,
    reported, Scheduler.step, Scheduler.ifLive, if_pos live]
  rfl

/-- The interrupt flag is read by an event of the thread. -/
theorem Ready.readInterrupt (ready : gate.Ready) (carries : gate.caller? host = some me)
    (clear : Bool) :
    gate.readInterrupt host clear =
      returning (gate.model.interrupted.contains me)
        (gate.reported me (.readInterrupt clear)) := by
  have live := ready.live carries
  rw [Gate.readInterrupt, ready.serve carries, reported, Scheduler.step, Scheduler.ifLive,
    if_pos live]
  dsimp only
  rw [Scheduler.ifLive, if_pos live]
  rfl

omit [DecisionSource σ] in
theorem current_of_caller (carries : gate.caller? host = some me) :
    gate.current host = returning me gate := by
  rw [current, carries]

/-- A host thread may start to carry a live thread that none carries. -/
theorem Ready.started (ready : gate.Ready) {thread : ThreadId}
    (live : gate.model.isLive thread = true) (host : Host) :
    gate.started host thread =
      { answer := (gate.reported thread (.bind host)).look (.turn thread)
        ring := .nobody
        gate := gate.reported thread (.bind host) } := by
  have bound : gate.model.step thread (.bind host) =
      (.ok .done, (gate.model.step thread (.bind host)).2) := by
    rw [Scheduler.step, Scheduler.ifLive, if_pos live]
    rfl
  have bell : (gate.reported thread (.bind host)).bells.contains thread = true :=
    ready.belled thread live
  rw [Gate.started, ready.unfailed, bound, ← awaitTurn_of_bell bell]
  rfl

/-- To start to carry a thread changes nothing but the registry. -/
theorem reported_bind {thread : ThreadId} (live : gate.model.isLive thread = true)
    (host : Host) :
    gate.reported thread (.bind host) =
      { gate with
        model := { gate.model with registry := gate.model.registry.bind host thread } } := by
  rw [reported, Scheduler.step, Scheduler.ifLive, if_pos live]
  rfl

theorem Ready.ready_started (ready : gate.Ready) {thread : ThreadId}
    (live : gate.model.isLive thread = true)
    (free : gate.model.registry.hostOf? thread = none) (host : Host) :
    (gate.reported thread (.bind host)).Ready := by
  rw [reported_bind live]
  constructor
  case unfailed => exact ready.unfailed
  case coherent =>
    exact ready.coherent.of_same_threads rfl rfl rfl (fun _ _ => id) rfl rfl
  case belled => exact ready.belled
  case matched => exact ready.matched.bind host free
  case carried =>
    intro other bound
    rcases Scheduler.isBound_bind gate.model.registry host thread other bound with same | before
    · exact (Scheduler.isLive_congr gate.model same).trans live
    · exact ready.carried other before

/-- A host thread that carries no thread fails the execution. -/
theorem failed_of_stranger (unfailed : gate.failure = none) (idle : gate.caller? host = none)
    {call : GateCall} (notBirth : ∀ thread, call ≠ .started thread) :
    (gate.call host call).gate.failure ≠ none := by
  have turned : ∀ {α : Type} (effect : ThreadId → Served σ α),
      gate.serve host effect = gate.failing (stranger host) := by
    intro α effect
    rw [Gate.serve, unfailed, idle]
    rfl
  cases call with
  | announce =>
      rw [Gate.call, Gate.announce, turned]
      exact Option.some_ne_none _
  | started thread => exact absurd rfl (notBirth thread)
  | exit =>
      rw [Gate.call, Gate.exit, turned]
      exact Option.some_ne_none _
  | act action =>
      rw [Gate.call, Gate.act, turned]
      exact Option.some_ne_none _
  | readInterrupt clear =>
      rw [Gate.call, Gate.readInterrupt, turned]
      exact Option.some_ne_none _
  | current =>
      rw [Gate.call, current, idle]
      exact Option.some_ne_none _
  | abort fault => exact Option.some_ne_none _
  | finish =>
      rw [Gate.call, Gate.finish, unfailed, Gate.exit, turned]
      exact Option.some_ne_none _

end Gate

end ScheduleSearch
