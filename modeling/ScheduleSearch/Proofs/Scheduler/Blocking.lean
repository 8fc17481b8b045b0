import ScheduleSearch.Proofs.Monitor.Ownership
import ScheduleSearch.Proofs.Scheduler.Reasons

/-!
# What an event blocks its own thread for

A thread that is blocked after an event of its own waits for what that event asks for.  It is
never blocked in the choice that follows: nobody takes a lock that the thread gave up for a
while before the choice is over.
-/

namespace ScheduleSearch

/-- What a thread is blocked for after an event of its own. -/
def Event.blocksFor? : Event → Option BlockReason
  | .act (.enter lock) => some (.lock lock)
  | event => event.reason?

private theorem Event.blocksFor?_of_reason? {event : Event} {reason : BlockReason}
    (waits : event.reason? = some reason) : event.blocksFor? = some reason := by
  match event with
  | .act (.wait lock false) => exact waits
  | .act .park => exact waits
  | .act (.join joinee false) => exact waits

/-- The event that a call on monitors comes from. -/
theorem Event.of_callOf? {event : Event} {actor : ThreadId} {call : MonitorCall}
    (called : event.callOf? actor = some call) :
    match call with
    | .enter thread lock => thread = actor ∧ event = .act (.enter lock)
    | .leave thread lock => thread = actor ∧ event = .act (.leave lock)
    | .wait thread lock timed => thread = actor ∧ event = .act (.wait lock timed)
    | .notify thread lock => thread = actor ∧ event = .act (.notify lock)
    | .notifyAll thread lock => thread = actor ∧ event = .act (.notifyAll lock)
    | .interrupt target => event = .act (.interrupt target)
    | .resume _ => False := by
  match event with
  | .act (.enter lock) =>
      cases called
      exact ⟨rfl, rfl⟩
  | .act (.leave lock) =>
      cases called
      exact ⟨rfl, rfl⟩
  | .act (.wait lock timed) =>
      cases called
      exact ⟨rfl, rfl⟩
  | .act (.notify lock) =>
      cases called
      exact ⟨rfl, rfl⟩
  | .act (.notifyAll lock) =>
      cases called
      exact ⟨rfl, rfl⟩
  | .act (.interrupt target) =>
      cases called
      rfl

namespace Scheduler

variable {σ : Type} {state ready : Scheduler σ} {actor thread : ThreadId} {event : Event}
  {reason : BlockReason}

/-- A running thread that wants a lock after its event, which another thread holds then, has
entered that lock: a lock that is given up for a while is free. -/
theorem Coherent.wants_after_own (coherent : state.Coherent)
    (runs : state.threads.state? actor = some .running) {lock : LockId}
    (enters : (state.prepare actor event).state.monitors.entering? actor = some lock)
    (held : (state.prepare actor event).state.HeldByOther lock actor) :
    event = .act (.enter lock) := by
  obtain ⟨notEntering, notWaiting, -⟩ := coherent.fits_of runs
  rw [HeldByOther, coherent.monitors_prepare] at held
  rw [coherent.monitors_prepare] at enters
  cases called : event.callOf? actor with
  | none =>
      rw [called] at enters
      cases notEntering.symm.trans enters
  | some call =>
      rw [called] at enters held
      rcases coherent.monitors.entering?_next enters with
        before | awaited | ⟨-, wanting, -, ⟨rfl, -⟩ | rfl⟩
      · cases notEntering.symm.trans before
      · cases notWaiting.symm.trans awaited
      · exact (Event.of_callOf? called).2
      · obtain ⟨rfl, -⟩ := Event.of_callOf? called
        by_cases owns : state.monitors.Owns wanting lock
        · obtain ⟨woken, after, effect, given, -⟩ :=
            MonitorTable.wait_timed_givesUp coherent.monitors owns notEntering notWaiting
          have reached : state.monitors.next (.wait wanting lock true) = after :=
            MonitorTable.next_of_ok effect
          obtain ⟨owner, owned, -⟩ := held
          change ((state.monitors.next (.wait wanting lock true)).monitorOf lock).owner = _ at owned
          rw [reached, given.free] at owned
          cases owned
        · have refused : state.monitors.next (.wait wanting lock true) = state.monitors :=
            MonitorTable.next_of_error (MonitorTable.wait_of_not_owns true owns)
          change (state.monitors.next (.wait wanting lock true)).entering? wanting = _ at enters
          rw [refused] at enters
          cases notEntering.symm.trans enters

variable [DecisionSource σ]

/-- What a thread is blocked for after a choice it was blocked for already, or it is a lock
that it wanted and that another thread held when the choice began. -/
theorem Coherent.reasons_of_pick (coherent : ready.Coherent)
    (nobody : ∀ thread, ready.threads.state? thread ≠ some .running) (label : String)
    (waits : (ready.pick label).2.threads.reason? thread = some reason) :
    ready.threads.reason? thread = some reason ∨
      ∃ lock, reason = .lock lock ∧ ready.monitors.entering? thread = some lock ∧
        ready.HeldByOther lock thread := by
  have along := Coherent.rounds_preserve
    (P := fun after =>
      ((∀ thread, after.threads.state? thread ≠ some .running) →
        after.monitors = ready.monitors) ∧
      ∀ reason, after.threads.reason? thread = some reason →
        ready.threads.reason? thread = some reason ∨
          ∃ lock, reason = .lock lock ∧ ready.monitors.entering? thread = some lock ∧
            ready.HeldByOther lock thread)
    (fun _ _ kept => kept) ?_ label ready.threads.runnable.length coherent nobody
    ⟨fun _ => rfl, fun _ => Or.inl⟩
  · exact along.2 reason waits
  intro before next beforeCoherent beforeNobody runnable kept
  obtain ⟨unchanged, reasons⟩ := kept
  have monitors := unchanged beforeNobody
  rcases beforeCoherent.promote beforeNobody runnable with
    ⟨resumed, -, effect, -⟩ | ⟨lock, enters, held, effect, -, turned⟩
  · rw [effect]
    have turned := RunStates.state?_set_of_live runnable .running
    refine ⟨fun nobodyThen => absurd ?_ (nobodyThen next), fun other waitsThen => ?_⟩
    · exact (turned next).trans (if_pos rfl)
    · apply reasons
      rw [RunStates.reason?_eq_some_iff] at waitsThen ⊢
      rw [turned] at waitsThen
      split at waitsThen
      · cases waitsThen
      · exact waitsThen
  · rw [effect]
    refine ⟨fun _ => monitors, fun other waitsThen => ?_⟩
    rw [RunStates.reason?_eq_some_iff] at waitsThen
    rw [turned] at waitsThen
    split at waitsThen
    next same =>
      cases waitsThen
      obtain ⟨owner, owned, foreign⟩ := held
      rw [monitors] at owned enters
      refine Or.inr ⟨lock, rfl, ?_, owner, owned, ?_⟩
      · exact (ready.monitors.entering?_congr same).trans enters
      · rw [same]
        exact foreign
    next => exact reasons other (RunStates.reason?_eq_some_iff.2 waitsThen)

/-- What the acting thread is blocked for after its event is what the event waits for. -/
theorem Coherent.blocked_after_own (coherent : state.Coherent)
    (runs : state.threads.state? actor = some .running) (event : Event)
    (waits : (state.step actor event).2.threads.reason? actor = some reason) :
    event.blocksFor? = some reason := by
  have onLock : ∀ lock, (state.prepare actor event).state.monitors.entering? actor = some lock →
      (state.prepare actor event).state.HeldByOther lock actor →
      event.blocksFor? = some (.lock lock) := by
    intro lock enters held
    rw [coherent.wants_after_own runs enters held]
    rfl
  have reasons := reasons_prepare state actor event
  have ready := coherent.ready runs event
  rw [step_of_live (isLive_iff.2 ⟨_, runs⟩)] at waits
  cases shape : state.prepare actor event with
  | settled outcome after =>
      rw [shape] at ready waits
      rw [RunStates.reason?_eq_some_iff] at waits
      cases ready.2.1.symm.trans waits
  | choosing label after =>
      rw [shape] at ready waits onLock reasons
      rcases ready.1.reasons_of_pick ready.2 label waits with before | ⟨lock, rfl, enters, held⟩
      · rcases reasons actor reason before with earlier | ⟨lock, rfl⟩ | ⟨-, own⟩
        · cases runs.symm.trans (RunStates.reason?_eq_some_iff.1 earlier)
        · have fits := ready.1.fits_of (RunStates.reason?_eq_some_iff.1 before)
          exact onLock lock fits.1 fits.2.2.2
        · exact Event.blocksFor?_of_reason? own
      · exact onLock lock enters held

end Scheduler

end ScheduleSearch
