import ScheduleSearch.Proofs.Scheduler.AnyActor
import ScheduleSearch.Proofs.Scheduler.Blocking

/-!
# Places in queues

A thread comes to stand in a queue of a lock by an event of its own only, when it enters the
lock while another thread owns it or waits on it.  What other threads do can take the thread from
the signal queue of a lock to its entry queue or out of both, but into none.
-/

namespace ScheduleSearch

namespace MonitorTable

variable {table after : MonitorTable} {call : MonitorCall} {transition : Transition}
  {thread : ThreadId} {lock : LockId}

/-- The thread is queued to enter the lock, or for a signal on it. -/
def QueuedOn (table : MonitorTable) (thread : ThreadId) (lock : LockId) : Prop :=
  table.entering? thread = some lock ∨ table.waitingFor? thread = some lock

/-- By the call the thread may come into a queue of the lock: it waits on the lock, or it enters
the lock without being its owner. -/
def Queues (table : MonitorTable) (call : MonitorCall) (actor : ThreadId) (lock : LockId) :
    Prop :=
  (call = .enter actor lock ∧ ¬ table.Owns actor lock) ∨ ∃ timed, call = .wait actor lock timed

private theorem waitingFor?_move (move : table.Move call transition after)
    (awaits : after.waitingFor? thread = some lock) :
    table.waitingFor? thread = some lock ∨
      ∃ actor, actor.lineage = thread.lineage ∧ call = .wait actor lock false := by
  have released : ∀ (before : MonitorTable) (monitor : Monitor) (left : LockId),
      (before.release left monitor).2.waitingFor? thread = some lock →
        before.waitingFor? thread = some lock := by
    intro before monitor left still
    rw [waitingFor?_release] at still
    split at still
    · cases still
    · exact still
  cases move with
  | seize free => exact Or.inl awaits
  | reenter held same => exact Or.inl awaits
  | queue held different => exact Or.inl awaits
  | leaveOnce own inner => exact Or.inl awaits
  | leave own last => exact Or.inl (released _ _ _ awaits)
  | @requeue actor left own => exact Or.inl (released _ _ left awaits)
  | @await actor awaited own =>
      have inserted := released _ _ _ awaits
      rw [waitingFor?_mk, Table.get?_insert] at inserted
      split at inserted
      next same =>
        obtain rfl := Option.some.inj inserted
        exact Or.inr ⟨actor, (ThreadId.compare_eq_iff.1 same).symm, rfl⟩
      next => exact Or.inl inserted
  | notify own => exact Or.inl awaits
  | notifyAll own => exact Or.inl awaits
  | undisturbed notWaiting => exact Or.inl awaits
  | interrupt waits saved =>
      rw [waitingFor?_mk, Table.get?_erase] at awaits
      split at awaits
      · cases awaits
      · exact Or.inl awaits
  | unhindered notEntering => exact Or.inl awaits
  | hinder wants held => exact Or.inl awaits
  | grant wants free saved => exact Or.inl awaits

/-- A thread stands in a queue of a lock after a call as it did before, or since the call is one
by which it comes there. -/
theorem Sound.queuedOn_next (sound : table.Sound)
    (queued : (table.next call).QueuedOn thread lock) :
    table.QueuedOn thread lock ∨
      ∃ actor, actor.lineage = thread.lineage ∧ table.Queues call actor lock := by
  rcases queued with enters | awaits
  · rcases sound.entering?_next enters with
      before | before | ⟨-, actor, same, entered | waited⟩
    · exact Or.inl (Or.inl before)
    · exact Or.inl (Or.inr before)
    · exact Or.inr ⟨actor, same, Or.inl entered⟩
    · exact Or.inr ⟨actor, same, Or.inr ⟨true, waited⟩⟩
  · cases attempted : table.attempt call with
    | error fault =>
        rw [next_of_error attempted] at awaits
        exact Or.inl (Or.inr awaits)
    | ok result =>
        rw [next_of_ok attempted] at awaits
        rcases waitingFor?_move (sound.move attempted) awaits with before | ⟨actor, same, waited⟩
        · exact Or.inl (Or.inr before)
        · exact Or.inr ⟨actor, same, Or.inr ⟨false, waited⟩⟩

end MonitorTable

namespace Scheduler

variable {σ : Type} {state : Scheduler σ} {actor thread : ThreadId} {event : Event}
  {lock : LockId}

/-- By the event `actor` may come into a queue of the lock. -/
def Queues (state : Scheduler σ) (event : Event) (actor : ThreadId) (lock : LockId) : Prop :=
  (event = .act (.enter lock) ∧ ¬ state.monitors.Owns actor lock) ∨
    ∃ timed, event = .act (.wait lock timed)

private theorem Coherent.queuedOn_prepare (coherent : state.Coherent)
    (queued : (state.prepare actor event).state.monitors.QueuedOn thread lock) :
    state.monitors.QueuedOn thread lock ∨
      (actor.lineage = thread.lineage ∧ state.Queues event actor lock) := by
  rw [coherent.monitors_prepare] at queued
  cases called : event.callOf? actor with
  | none =>
      rw [called] at queued
      exact Or.inl queued
  | some call =>
      rw [called] at queued
      rcases coherent.monitors.queuedOn_next queued with
        before | ⟨caller, same, ⟨rfl, foreign⟩ | ⟨timed, rfl⟩⟩
      · exact Or.inl before
      · obtain ⟨rfl, entered⟩ := Event.of_callOf? called
        exact Or.inr ⟨same, Or.inl ⟨entered, foreign⟩⟩
      · obtain ⟨rfl, waited⟩ := Event.of_callOf? called
        exact Or.inr ⟨same, Or.inr ⟨timed, waited⟩⟩

/-- A thread that stands in no queue of a lock and has a share in it owns it. -/
theorem Coherent.owns_of_share (coherent : state.Coherent)
    (shares : 0 < state.monitors.share thread lock)
    (unqueued : ¬ state.monitors.QueuedOn thread lock) : state.monitors.Owns thread lock := by
  by_contra foreign
  have notEntry : ¬ Queued (state.monitors.monitorOf lock).entryQueue thread := fun queued =>
    unqueued (Or.inl ((coherent.monitors.entering_iff thread lock).2 queued))
  have notSignal : ¬ Queued (state.monitors.monitorOf lock).signalQueue thread := fun queued =>
    unqueued (Or.inr ((coherent.monitors.waitingFor_iff thread lock).2 queued))
  rw [MonitorTable.share_of_absent foreign notEntry notSignal] at shares
  exact Nat.lt_irrefl 0 shares

/-- A running thread stands in no queue. -/
theorem Coherent.not_queuedOn_of_running (coherent : state.Coherent)
    (runs : state.threads.state? thread = some .running) (lock : LockId) :
    ¬ state.monitors.QueuedOn thread lock := by
  obtain ⟨notEntering, notWaiting, -⟩ := coherent.fits_of runs
  rintro (enters | awaits)
  · cases notEntering.symm.trans enters
  · cases notWaiting.symm.trans awaits

/-- A thread that nobody has announced stands in no queue. -/
theorem Coherent.not_queuedOn_of_unknown (coherent : state.Coherent)
    (unknown : ¬ state.Known thread) (lock : LockId) :
    ¬ state.monitors.QueuedOn thread lock := by
  have absent : state.threads.state? thread = none := by
    cases found : state.threads.state? thread with
    | none => rfl
    | some run => exact absurd (Or.inl (isLive_iff.2 ⟨run, found⟩)) unknown
  have fits := coherent.fits thread
  rw [absent] at fits
  obtain ⟨notEntering, notWaiting, -⟩ := fits
  rintro (enters | awaits)
  · cases notEntering.symm.trans enters
  · cases notWaiting.symm.trans awaits

variable [DecisionSource σ]

/-- The choice brings nobody into a queue. -/
theorem Coherent.queuedOn_pick (coherent : state.Coherent)
    (nobody : ∀ thread, state.threads.state? thread ≠ some .running) (label : String)
    (queued : (state.pick label).2.monitors.QueuedOn thread lock) :
    state.monitors.QueuedOn thread lock := by
  refine Coherent.pick_preserves
    (P := fun after => after.monitors.QueuedOn thread lock →
      state.monitors.QueuedOn thread lock)
    (fun _ _ kept => kept) ?_ label _ coherent nobody id queued
  intro before next beforeCoherent beforeNobody kept still
  rw [monitors_promote beforeNobody] at still
  have resumed : (before.monitors.next (.resume next)).QueuedOn thread lock := still
  rcases beforeCoherent.monitors.queuedOn_next resumed with earlier | ⟨_, -, entered | waited⟩
  · exact kept earlier
  · cases entered.1
  · obtain ⟨timed, impossible⟩ := waited
    cases impossible

/-- A thread stands in a queue of a lock after an event as it did before, or since the event is
its own and brings it there. -/
theorem Coherent.queuedOn_step (coherent : state.Coherent)
    (runs : state.threads.state? actor = some .running)
    (queued : (state.step actor event).2.monitors.QueuedOn thread lock) :
    state.monitors.QueuedOn thread lock ∨
      (actor.lineage = thread.lineage ∧ state.Queues event actor lock) := by
  refine coherent.step_preserves
    (P := fun after => after.monitors.QueuedOn thread lock →
      state.monitors.QueuedOn thread lock ∨
        (actor.lineage = thread.lineage ∧ state.Queues event actor lock))
    runs coherent.queuedOn_prepare ?_ queued
  intro ready label readyCoherent nobody kept still
  exact kept (readyCoherent.queuedOn_pick nobody label still)

end Scheduler

end ScheduleSearch
