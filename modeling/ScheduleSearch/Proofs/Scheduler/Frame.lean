import ScheduleSearch.Proofs.Monitor.Calls
import ScheduleSearch.Proofs.Scheduler.Reentrancy

/-!
# What events leave alone

An event changes run states, monitors, joins, permits and interrupt flags.  What it does beyond
that it does for its own thread only, and it is written down in `Scheduler.noted`.  The choice
of the next thread changes less: run states, the monitors it grants, the count of decisions and
the source.
-/

namespace ScheduleSearch

/-- The call on monitors that an event of `actor` amounts to. -/
def Event.callOf? (event : Event) (actor : ThreadId) : Option MonitorCall :=
  match event with
  | .act (.enter lock) => some (.enter actor lock)
  | .act (.leave lock) => some (.leave actor lock)
  | .act (.wait lock timed) => some (.wait actor lock timed)
  | .act (.notify lock) => some (.notify actor lock)
  | .act (.notifyAll lock) => some (.notifyAll actor lock)
  | .act (.interrupt target) => some (.interrupt target)
  | _ => none

namespace RunStates

theorem contains_set (states : RunStates) (thread : ThreadId) (run : RunState)
    (other : ThreadId) : (states.set thread run).contains other = states.contains other := by
  change ((states.set thread run).state? other).isSome = (states.state? other).isSome
  rw [state?_set]
  split
  · exact Option.isSome_map
  · rfl

private theorem contains_unblock (states : RunStates) (thread other : ThreadId) :
    (states.unblock thread).contains other = states.contains other := by
  change ((states.unblock thread).state? other).isSome = (states.state? other).isSome
  rw [state?_unblock]
  split
  · exact Option.isSome_map
  · rfl

private theorem contains_foldl {change : RunStates → ThreadId → RunStates}
    (kept : ∀ states thread other, (change states thread).contains other = states.contains other)
    (threads : List ThreadId) :
    ∀ (states : RunStates) (other : ThreadId),
      (threads.foldl change states).contains other = states.contains other := by
  induction threads with
  | nil =>
      intro states other
      rfl
  | cons thread rest inductionHypothesis =>
      intro states other
      rw [List.foldl_cons, inductionHypothesis, kept]

end RunStates

namespace Scheduler

variable {σ : Type} {state before after middle : Scheduler σ} {actor : ThreadId}

/-- The state with what an event notes of its own thread: a child, a host thread, a place, or
that it is gone. -/
def noted (state : Scheduler σ) (actor : ThreadId) : Event → Scheduler σ
  | .announce => (state.announce actor).2
  | .bind host => { state with registry := state.registry.bind host actor }
  | .exit => state.forget actor
  | .act (.yield site) => { state with places := state.places.insert actor site }
  | _ => state

/-- The states agree but for what the live threads do, monitors, joins, permits and interrupt
flags. -/
structure EventFrame (before after : Scheduler σ) : Prop where
  registry : after.registry = before.registry
  exited : after.exited = before.exited
  places : after.places = before.places
  rootExited : after.rootExited = before.rootExited
  decisions : after.decisions = before.decisions
  maxDecisions : after.maxDecisions = before.maxDecisions
  source : after.source = before.source
  live : ∀ thread, after.isLive thread = before.isLive thread

private theorem EventFrame.refl (state : Scheduler σ) : EventFrame state state :=
  ⟨rfl, rfl, rfl, rfl, rfl, rfl, rfl, fun _ => rfl⟩

private theorem EventFrame.trans (first : EventFrame before middle)
    (second : EventFrame middle after) :
    EventFrame before after where
  registry := second.registry.trans first.registry
  exited := second.exited.trans first.exited
  places := second.places.trans first.places
  rootExited := second.rootExited.trans first.rootExited
  decisions := second.decisions.trans first.decisions
  maxDecisions := second.maxDecisions.trans first.maxDecisions
  source := second.source.trans first.source
  live := fun thread => (second.live thread).trans (first.live thread)

/-- Changes of records that are no part of the frame. -/
private theorem frame_records (state : Scheduler σ) (monitors : MonitorTable) (joins : Joins)
    (permits interrupted : KeySet ThreadId) {threads : RunStates}
    (kept : ∀ thread, threads.contains thread = state.threads.contains thread) :
    EventFrame state
      { state with
        threads := threads
        monitors := monitors
        joins := joins
        permits := permits
        interrupted := interrupted } :=
  ⟨rfl, rfl, rfl, rfl, rfl, rfl, rfl, kept⟩

private theorem frame_adjust (state : Scheduler σ) (p : Prop) [Decidable p] {threads : RunStates}
    (kept : ∀ thread, threads.contains thread = state.threads.contains thread) :
    EventFrame state (if p then { state with threads := threads } else state) := by
  split
  · exact frame_records state _ _ _ _ kept
  · exact .refl state

theorem frame_stoodBack (state : Scheduler σ) (thread : ThreadId) :
    EventFrame state (state.stoodBack thread) :=
  frame_adjust state _ (state.threads.contains_set thread _)

private theorem frame_follow (state : Scheduler σ) (monitors : MonitorTable)
    (transition : Transition) (reason : BlockReason) :
    EventFrame state ({ state with monitors := monitors }.follow transition reason) := by
  have blocked : ∀ (states : RunStates) listed thread,
      (states.setBlocked listed reason).contains thread = states.contains thread :=
    fun states listed => states.contains_set listed _
  refine frame_records state _ _ _ _ fun thread => ?_
  exact (RunStates.contains_foldl RunStates.contains_unblock _ _ thread).trans
    (RunStates.contains_foldl blocked _ _ thread)

private theorem frame_grantPermit (state : Scheduler σ) (target : ThreadId) :
    EventFrame state (state.grantPermit target) := by
  rw [grantPermit]
  split
  · exact frame_records state _ _ _ _ (state.threads.contains_unblock target)
  · exact frame_records state _ _ _ _ fun _ => rfl

private theorem frame_setInterrupt (state : Scheduler σ) (target : ThreadId) :
    EventFrame state (state.setInterrupt target) := by
  have moved := frame_records state (state.monitors.interrupt target).2 state.joins state.permits
    (state.interrupted.add target) (RunStates.contains_foldl RunStates.contains_unblock
      (state.monitors.interrupt target).1.unblocked state.threads)
  unfold setInterrupt
  refine EventFrame.trans ?_ (frame_adjust _ _ (RunStates.contains_unblock _ target))
  split
  · exact moved.trans (frame_adjust _ _ (RunStates.contains_set _ target _))
  · exact moved

theorem frame_prepareAction (state : Scheduler σ) (actor : ThreadId) (action : Action) :
    EventFrame (state.noted actor (.act action)) (state.prepareAction actor action).state := by
  cases action with
  | yield site => exact frame_stoodBack _ actor
  | enter lock =>
      simp only [prepareAction]
      split
      · exact frame_records state _ _ _ _ fun _ => rfl
      · exact frame_follow state _ _ _
  | leave lock =>
      simp only [prepareAction]
      cases state.monitors.leave actor lock with
      | error fault => exact .refl state
      | ok result =>
          exact (frame_follow state result.2 result.1 _).trans (frame_stoodBack _ actor)
  | wait lock timed =>
      simp only [prepareAction]
      cases state.monitors.wait actor lock timed with
      | error fault => exact .refl state
      | ok result =>
          exact (frame_follow state result.2 result.1 _).trans (frame_stoodBack _ actor)
  | notify lock =>
      simp only [prepareAction]
      cases state.monitors.notify actor lock with
      | error fault => exact .refl state
      | ok monitors => exact frame_records state _ _ _ _ fun _ => rfl
  | notifyAll lock =>
      simp only [prepareAction]
      cases state.monitors.notifyAll actor lock with
      | error fault => exact .refl state
      | ok monitors => exact frame_records state _ _ _ _ fun _ => rfl
  | park =>
      simp only [prepareAction]
      split
      · exact frame_records state _ _ _ _ fun _ => rfl
      · split
        · exact .refl state
        · exact frame_records state _ _ _ _ (state.threads.contains_set actor _)
  | unpark target =>
      simp only [prepareAction]
      cases state.target target with
      | exited => exact .refl state
      | unknown => exact .refl state
      | live => exact frame_grantPermit state target
  | join joinee timed =>
      simp only [prepareAction]
      cases state.target joinee with
      | exited => exact .refl state
      | unknown => exact .refl state
      | live =>
          cases timed with
          | true => exact frame_stoodBack state actor
          | false => exact frame_records state _ _ _ _ (state.threads.contains_set actor _)
  | interrupt target =>
      simp only [prepareAction]
      cases state.target target with
      | exited => exact .refl state
      | unknown => exact .refl state
      | live => exact frame_setInterrupt state target

/-- Before the choice an event does no more than it notes of its own thread. -/
theorem frame_prepare (state : Scheduler σ) (actor : ThreadId) (event : Event) :
    EventFrame (state.noted actor event) (state.prepare actor event).state := by
  cases event with
  | announce => exact .refl _
  | bind host => exact .refl _
  | exit => exact .refl _
  | choose => exact frame_stoodBack state actor
  | readInterrupt clear =>
      cases clear with
      | false => exact .refl state
      | true => exact frame_records state _ _ _ _ fun _ => rfl
  | act action => exact frame_prepareAction state actor action

/-- Before the choice nothing is decided. -/
theorem undecided_prepare (state : Scheduler σ) (actor : ThreadId) (event : Event) :
    (state.prepare actor event).state.source = state.source ∧
      (state.prepare actor event).state.decisions = state.decisions := by
  have frame := frame_prepare state actor event
  rw [frame.source, frame.decisions]
  match event with
  | .announce => exact ⟨rfl, rfl⟩
  | .bind host => exact ⟨rfl, rfl⟩
  | .exit => exact ⟨rfl, rfl⟩
  | .choose => exact ⟨rfl, rfl⟩
  | .readInterrupt clear => exact ⟨rfl, rfl⟩
  | .act action => cases action <;> exact ⟨rfl, rfl⟩

theorem hasExited_of_target {thread : ThreadId} (exited : state.target thread = .exited) :
    state.hasExited thread = true := by
  rw [target] at exited
  split at exited
  next holds => exact holds
  next => split at exited <;> cases exited

private theorem state?_of_unknown {thread : ThreadId} (unknown : state.target thread = .unknown) :
    state.threads.state? thread = none := by
  rw [target] at unknown
  split at unknown
  · cases unknown
  · split at unknown
    next => cases unknown
    next absent =>
      cases found : state.threads.state? thread with
      | none => rfl
      | some run => exact absurd (isLive_iff.2 ⟨run, found⟩) absent

/-- The monitors after an event of a running thread are those after its call on them. -/
theorem Coherent.monitors_prepare (coherent : state.Coherent) (actor : ThreadId)
    (event : Event) :
    (state.prepare actor event).state.monitors =
      (event.callOf? actor).elim state.monitors state.monitors.next := by
  match event with
  | .announce => rfl
  | .bind host => rfl
  | .exit => rfl
  | .choose => exact monitors_stoodBack state actor
  | .readInterrupt clear => cases clear <;> rfl
  | .act (.yield site) => exact monitors_stoodBack _ actor
  | .act (.enter lock) =>
      simp only [prepare, prepareAction]
      split <;> rfl
  | .act (.leave lock) =>
      change _ = state.monitors.next (.leave actor lock)
      simp only [prepare, prepareAction, MonitorTable.next, MonitorTable.attempt]
      cases state.monitors.leave actor lock with
      | error fault => rfl
      | ok result => exact monitors_stoodBack (follow _ _ _) actor
  | .act (.wait lock timed) =>
      change _ = state.monitors.next (.wait actor lock timed)
      simp only [prepare, prepareAction, MonitorTable.next, MonitorTable.attempt]
      cases state.monitors.wait actor lock timed with
      | error fault => rfl
      | ok result => exact monitors_stoodBack (follow _ _ _) actor
  | .act (.notify lock) =>
      change _ = state.monitors.next (.notify actor lock)
      simp only [prepare, prepareAction, MonitorTable.next, MonitorTable.attempt]
      cases state.monitors.notify actor lock <;> rfl
  | .act (.notifyAll lock) =>
      change _ = state.monitors.next (.notifyAll actor lock)
      simp only [prepare, prepareAction, MonitorTable.next, MonitorTable.attempt]
      cases state.monitors.notifyAll actor lock <;> rfl
  | .act .park =>
      simp only [prepare, prepareAction]
      split
      · rfl
      · split <;> rfl
  | .act (.unpark target) =>
      simp only [prepare, prepareAction]
      cases state.target target with
      | exited => rfl
      | unknown => rfl
      | live => exact monitors_grantPermit state target
  | .act (.join joinee timed) =>
      simp only [prepare, prepareAction]
      cases state.target joinee with
      | exited => rfl
      | unknown => rfl
      | live =>
          cases timed with
          | true => exact monitors_stoodBack state actor
          | false => rfl
  | .act (.interrupt target) =>
      change _ = state.monitors.next (.interrupt target)
      have ignored : state.threads.state? target = none →
          state.monitors = state.monitors.next (.interrupt target) := by
        intro absent
        have fits := coherent.fits target
        rw [absent] at fits
        change _ = (state.monitors.interrupt target).2
        rw [MonitorTable.interrupt_of_not_waiting fits.2.1]
      simp only [prepare, prepareAction]
      cases known : state.target target with
      | exited => exact ignored (coherent.finished target (hasExited_of_target known))
      | unknown => exact ignored (state?_of_unknown known)
      | live => exact monitors_setInterrupt state target

/-! ## The choice -/

/-- What the choice of the next thread leaves alone. -/
structure ChoiceFrame (before after : Scheduler σ) : Prop where
  registry : after.registry = before.registry
  exited : after.exited = before.exited
  places : after.places = before.places
  rootExited : after.rootExited = before.rootExited
  maxDecisions : after.maxDecisions = before.maxDecisions
  joins : after.joins = before.joins
  permits : after.permits = before.permits
  interrupted : after.interrupted = before.interrupted
  waiting : after.monitors.waiting = before.monitors.waiting
  live : ∀ thread, after.isLive thread = before.isLive thread

theorem ChoiceFrame.refl (state : Scheduler σ) : ChoiceFrame state state :=
  ⟨rfl, rfl, rfl, rfl, rfl, rfl, rfl, rfl, rfl, fun _ => rfl⟩

theorem ChoiceFrame.trans (first : ChoiceFrame before middle)
    (second : ChoiceFrame middle after) : ChoiceFrame before after where
  registry := second.registry.trans first.registry
  exited := second.exited.trans first.exited
  places := second.places.trans first.places
  rootExited := second.rootExited.trans first.rootExited
  maxDecisions := second.maxDecisions.trans first.maxDecisions
  joins := second.joins.trans first.joins
  permits := second.permits.trans first.permits
  interrupted := second.interrupted.trans first.interrupted
  waiting := second.waiting.trans first.waiting
  live := fun thread => (second.live thread).trans (first.live thread)

theorem waiting_resume (table : MonitorTable) (thread : ThreadId) :
    (table.resume thread).2.waiting = table.waiting := by
  rw [MonitorTable.resume]
  split
  · rfl
  · split
    · rfl
    · split <;> rfl

/-- A thread that is let run runs, or it is blocked on a lock. -/
theorem promote_eq (nobody : ∀ thread, state.threads.state? thread ≠ some .running)
    (next : ThreadId) :
    ∃ threads, (state.promote next).2 =
        { state with threads := threads, monitors := (state.monitors.resume next).2 } ∧
      (threads = state.threads.set next .running ∨ ∃ lock,
        threads = (state.threads.set next .running).set next (.blocked (some (.lock lock)))) := by
  rw [promote, RunStates.setRunning_of_none nobody next]
  dsimp only
  split
  · exact ⟨_, rfl, Or.inl rfl⟩
  · split
    next lock wanted => exact ⟨_, rfl, Or.inr ⟨lock, rfl⟩⟩
    next => exact ⟨_, rfl, Or.inl rfl⟩

theorem frame_promote (nobody : ∀ thread, state.threads.state? thread ≠ some .running)
    (next : ThreadId) : ChoiceFrame state (state.promote next).2 := by
  obtain ⟨threads, effect, turned⟩ := promote_eq nobody next
  rw [effect]
  refine ⟨rfl, rfl, rfl, rfl, rfl, rfl, rfl, rfl, waiting_resume _ next, fun thread => ?_⟩
  rcases turned with rfl | ⟨lock, rfl⟩
  · exact RunStates.contains_set _ next _ thread
  · exact (RunStates.contains_set _ next _ thread).trans (RunStates.contains_set _ next _ thread)

theorem Coherent.frame_pick [DecisionSource σ] (coherent : state.Coherent)
    (nobody : ∀ thread, state.threads.state? thread ≠ some .running) (label : String) :
    ChoiceFrame state (state.pick label).2 := by
  refine Coherent.pick_preserves (P := ChoiceFrame state) ?_ ?_ label _ coherent nobody
    (.refl state)
  · intro before decisions source frame
    exact frame.trans ⟨rfl, rfl, rfl, rfl, rfl, rfl, rfl, rfl, rfl, fun _ => rfl⟩
  · intro before next _ beforeNobody frame
    exact frame.trans (frame_promote beforeNobody next)

/-- The states agree on who is live and on the records that only the acting thread changes. -/
structure StepFrame (before after : Scheduler σ) : Prop where
  registry : after.registry = before.registry
  exited : after.exited = before.exited
  places : after.places = before.places
  rootExited : after.rootExited = before.rootExited
  maxDecisions : after.maxDecisions = before.maxDecisions
  live : ∀ thread, after.isLive thread = before.isLive thread

/-- An event does no more to these records than it notes of its own thread. -/
theorem Coherent.frame_step [DecisionSource σ] (coherent : state.Coherent)
    (runs : state.threads.state? actor = some .running) (event : Event) :
    StepFrame (state.noted actor event) (state.step actor event).2 := by
  refine coherent.step_preserves runs ?_ ?_
  · have frame := frame_prepare state actor event
    exact ⟨frame.registry, frame.exited, frame.places, frame.rootExited, frame.maxDecisions,
      frame.live⟩
  · intro ready label readyCoherent nobody frame
    have choice := readyCoherent.frame_pick nobody label
    exact ⟨choice.registry.trans frame.registry, choice.exited.trans frame.exited,
      choice.places.trans frame.places, choice.rootExited.trans frame.rootExited,
      choice.maxDecisions.trans frame.maxDecisions,
      fun thread => (choice.live thread).trans (frame.live thread)⟩

end Scheduler

end ScheduleSearch
