import ScheduleSearch.Proofs.Monitor.Soundness

/-!
# Calls on a table of monitors

The operations on monitors as values, so that runs of them can be spoken of.  A call that is
refused changes nothing.  `MonitorTable.Move` lists what the calls that are not refused do, each
with the condition under which it does so; later proofs split on it and unfold no operation.
-/

namespace ScheduleSearch

/-- An operation on monitors. -/
inductive MonitorCall where
  | enter (thread : ThreadId) (lock : LockId)
  | leave (thread : ThreadId) (lock : LockId)
  | wait (thread : ThreadId) (lock : LockId) (timed : Bool)
  | notify (thread : ThreadId) (lock : LockId)
  | notifyAll (thread : ThreadId) (lock : LockId)
  | interrupt (thread : ThreadId)
  | resume (thread : ThreadId)
  deriving DecidableEq, Repr

namespace MonitorTable

/-- What a call answers, with the table it leaves, or the fault with which it is refused. -/
def attempt (table : MonitorTable) : MonitorCall → Except Fault (Transition × MonitorTable)
  | .enter thread lock => .ok (table.enter thread lock)
  | .leave thread lock => table.leave thread lock
  | .wait thread lock timed => table.wait thread lock timed
  | .notify thread lock => (table.notify thread lock).map fun after => (.none, after)
  | .notifyAll thread lock => (table.notifyAll thread lock).map fun after => (.none, after)
  | .interrupt thread => .ok (table.interrupt thread)
  | .resume thread => .ok (table.resume thread)

/-- The table after a call. -/
def next (table : MonitorTable) (call : MonitorCall) : MonitorTable :=
  match table.attempt call with
  | .ok (_, after) => after
  | .error _ => table

variable {table after : MonitorTable} {call : MonitorCall} {transition : Transition}

theorem next_of_ok (done : table.attempt call = .ok (transition, after)) :
    table.next call = after := by
  rw [next, done]

theorem next_of_error {fault : Fault} (refused : table.attempt call = .error fault) :
    table.next call = table := by
  rw [next, refused]

/-- What a call that is not refused answers and leaves. -/
inductive Move (table : MonitorTable) : MonitorCall → Transition → MonitorTable → Prop
  | seize {thread : ThreadId} {lock : LockId} (free : (table.monitorOf lock).owner = none) :
      Move table (.enter thread lock) .none
        (table.record lock { table.monitorOf lock with owner := some thread, depth := 1 })
  | reenter {thread owner : ThreadId} {lock : LockId}
      (held : (table.monitorOf lock).owner = some owner) (same : owner.lineage = thread.lineage) :
      Move table (.enter thread lock) .none
        (table.record lock
          { table.monitorOf lock with depth := (table.monitorOf lock).depth + 1 })
  | queue {thread owner : ThreadId} {lock : LockId}
      (held : (table.monitorOf lock).owner = some owner)
      (different : owner.lineage ≠ thread.lineage) :
      Move table (.enter thread lock) (.block thread)
        { monitors := table.monitors.insert lock
            { table.monitorOf lock with
              entryQueue := (table.monitorOf lock).entryQueue ++ [⟨thread, 1⟩] }
          entering := table.entering.insert thread lock
          waiting := table.waiting }
  | leaveOnce {thread : ThreadId} {lock : LockId} (owns : table.Owns thread lock)
      (inner : 1 < (table.monitorOf lock).depth) :
      Move table (.leave thread lock) .none
        (table.record lock
          { table.monitorOf lock with depth := (table.monitorOf lock).depth - 1 })
  | leave {thread : ThreadId} {lock : LockId} (owns : table.Owns thread lock)
      (last : (table.monitorOf lock).depth ≤ 1) :
      Move table (.leave thread lock)
        (.unblock ((table.monitorOf lock).released.entryQueue.map (·.thread)))
        (table.release lock
          { table.monitorOf lock with depth := (table.monitorOf lock).depth - 1 }).2
  | requeue {thread : ThreadId} {lock : LockId} (owns : table.Owns thread lock) :
      Move table (.wait thread lock true)
        ⟨[], (requeued (table.monitorOf lock) thread).released.entryQueue.map (·.thread)⟩
        ({ table with entering := table.entering.insert thread lock }.release lock
          (requeued (table.monitorOf lock) thread)).2
  | await {thread : ThreadId} {lock : LockId} (owns : table.Owns thread lock) :
      Move table (.wait thread lock false)
        ⟨[thread], (awaiting (table.monitorOf lock) thread).released.entryQueue.map (·.thread)⟩
        ({ table with waiting := table.waiting.insert thread lock }.release lock
          (awaiting (table.monitorOf lock) thread)).2
  | notify {thread : ThreadId} {lock : LockId} (owns : table.Owns thread lock) :
      Move table (.notify thread lock) .none
        (table.record lock
          { table.monitorOf lock with
            pendingSignals := min ((table.monitorOf lock).pendingSignals + 1)
              (table.monitorOf lock).signalQueue.length })
  | notifyAll {thread : ThreadId} {lock : LockId} (owns : table.Owns thread lock) :
      Move table (.notifyAll thread lock) .none
        (table.record lock
          { table.monitorOf lock with
            pendingSignals := (table.monitorOf lock).signalQueue.length })
  | undisturbed {thread : ThreadId} (notWaiting : table.waitingFor? thread = none) :
      Move table (.interrupt thread) .none table
  | interrupt {thread : ThreadId} {lock : LockId} {depth : Nat}
      (waits : table.waitingFor? thread = some lock)
      (saved : savedDepth? (table.monitorOf lock).signalQueue thread = some depth) :
      Move table (.interrupt thread)
        (if (table.monitorOf lock).isHeld then .none else .unblock [thread])
        { monitors := table.monitors.insert lock
            (interrupted (table.monitorOf lock) thread depth)
          entering := table.entering.insert thread lock
          waiting := table.waiting.erase thread }
  | unhindered {thread : ThreadId} (notEntering : table.entering? thread = none) :
      Move table (.resume thread) .none table
  | hinder {thread : ThreadId} {lock : LockId} (enters : table.entering? thread = some lock)
      (held : (table.monitorOf lock).isHeld = true) :
      Move table (.resume thread) (.block thread) table
  | grant {thread : ThreadId} {lock : LockId} {depth : Nat}
      (enters : table.entering? thread = some lock)
      (free : (table.monitorOf lock).owner = none)
      (saved : savedDepth? (table.monitorOf lock).entryQueue thread = some depth) :
      Move table (.resume thread) .none
        { monitors := table.monitors.insert lock (granted (table.monitorOf lock) thread depth)
          entering := table.entering.erase thread
          waiting := table.waiting }

private theorem move_enter (table : MonitorTable) (thread : ThreadId) (lock : LockId) :
    table.Move (.enter thread lock) (table.enter thread lock).1 (table.enter thread lock).2 := by
  cases held : (table.monitorOf lock).owner with
  | none =>
      rw [enter_free held]
      exact .seize held
  | some owner =>
      by_cases same : owner.lineage = thread.lineage
      · rw [enter_again held same]
        exact .reenter held same
      · rw [enter_held held same]
        exact .queue held same

private theorem move_leave {thread : ThreadId} {lock : LockId}
    (left : table.leave thread lock = .ok (transition, after)) :
    table.Move (.leave thread lock) transition after := by
  by_cases owns : table.Owns thread lock
  · by_cases inner : 1 < (table.monitorOf lock).depth
    · rw [leave_inner owns inner] at left
      cases left
      exact .leaveOnce owns inner
    · have last : (table.monitorOf lock).depth ≤ 1 := by omega
      rw [leave_last owns last] at left
      cases left
      exact .leave owns last
  · rw [leave_of_not_owns owns] at left
    cases left

private theorem move_wait {thread : ThreadId} {lock : LockId} {timed : Bool}
    (waited : table.wait thread lock timed = .ok (transition, after)) :
    table.Move (.wait thread lock timed) transition after := by
  by_cases owns : table.Owns thread lock
  · cases timed with
    | true =>
        rw [wait_timed owns] at waited
        cases waited
        exact .requeue owns
    | false =>
        rw [wait_untimed owns] at waited
        cases waited
        exact .await owns
  · rw [wait_of_not_owns timed owns] at waited
    cases waited

private theorem move_notify {thread : ThreadId} {lock : LockId}
    (notified : table.notify thread lock = .ok after) :
    table.Move (.notify thread lock) .none after := by
  by_cases owns : table.Owns thread lock
  · rw [notify_of_owns owns] at notified
    cases notified
    exact .notify owns
  · rw [notify_of_not_owns owns] at notified
    cases notified

private theorem move_notifyAll {thread : ThreadId} {lock : LockId}
    (notified : table.notifyAll thread lock = .ok after) :
    table.Move (.notifyAll thread lock) .none after := by
  by_cases owns : table.Owns thread lock
  · rw [notifyAll_of_owns owns] at notified
    cases notified
    exact .notifyAll owns
  · rw [notifyAll_of_not_owns owns] at notified
    cases notified

private theorem Sound.move_interrupt (sound : table.Sound) (thread : ThreadId) :
    table.Move (.interrupt thread) (table.interrupt thread).1 (table.interrupt thread).2 := by
  cases waits : table.waitingFor? thread with
  | none =>
      rw [interrupt_of_not_waiting waits]
      exact .undisturbed waits
  | some lock =>
      have queued := (sound.waitingFor_iff thread lock).1 waits
      obtain ⟨depth, saved, effect⟩ := interrupt_of_waiting waits queued
      rw [effect]
      exact .interrupt waits saved

theorem Sound.move_resume (sound : table.Sound) (thread : ThreadId) :
    table.Move (.resume thread) (table.resume thread).1 (table.resume thread).2 := by
  cases enters : table.entering? thread with
  | none =>
      rw [resume_of_not_entering enters]
      exact .unhindered enters
  | some lock =>
      have queued := (sound.entering_iff thread lock).1 enters
      cases owner : (table.monitorOf lock).owner with
      | some holder =>
          have held := Monitor.isHeld_iff.2 ⟨holder, owner⟩
          rw [resume_held enters queued held]
          exact .hinder enters held
      | none =>
          obtain ⟨depth, saved, effect⟩ := resume_free enters queued owner
          rw [effect]
          exact .grant enters owner saved

private theorem ok_of_signal {signal : Except Fault MonitorTable}
    (done : (signal.map fun after => (Transition.none, after)) = .ok (transition, after)) :
    transition = .none ∧ signal = .ok after := by
  cases signal with
  | error fault => cases done
  | ok left =>
      cases done
      exact ⟨rfl, rfl⟩

/-- A call that is not refused does one of the things that are listed. -/
theorem Sound.move (sound : table.Sound)
    (done : table.attempt call = .ok (transition, after)) : table.Move call transition after := by
  cases call with
  | enter thread lock =>
      have move := table.move_enter thread lock
      rw [Except.ok.inj done] at move
      exact move
  | leave thread lock => exact move_leave done
  | wait thread lock timed => exact move_wait done
  | notify thread lock =>
      obtain ⟨rfl, notified⟩ := ok_of_signal done
      exact move_notify notified
  | notifyAll thread lock =>
      obtain ⟨rfl, notified⟩ := ok_of_signal done
      exact move_notifyAll notified
  | interrupt thread =>
      have move := sound.move_interrupt thread
      rw [Except.ok.inj done] at move
      exact move
  | resume thread =>
      have move := sound.move_resume thread
      rw [Except.ok.inj done] at move
      exact move

/-- The thread has no place in any queue. -/
def Unqueued (table : MonitorTable) (thread : ThreadId) : Prop :=
  ∀ monitor ∈ table.monitors.values,
    ¬ Queued monitor.entryQueue thread ∧ ¬ Queued monitor.signalQueue thread

instance (table : MonitorTable) (thread : ThreadId) : Decidable (table.Unqueued thread) :=
  inferInstanceAs (Decidable (∀ monitor ∈ table.monitors.values, _))

/-- A thread enters a lock or waits on one only while it has no place in any queue.  The other
calls may come from any thread at any time. -/
def Permitted (table : MonitorTable) : MonitorCall → Prop
  | .enter thread _ => table.Unqueued thread
  | .wait thread _ _ => table.Unqueued thread
  | _ => True

instance (table : MonitorTable) : (call : MonitorCall) → Decidable (table.Permitted call)
  | .enter thread _ => inferInstanceAs (Decidable (table.Unqueued thread))
  | .wait thread _ _ => inferInstanceAs (Decidable (table.Unqueued thread))
  | .leave .. => inferInstanceAs (Decidable True)
  | .notify .. => inferInstanceAs (Decidable True)
  | .notifyAll .. => inferInstanceAs (Decidable True)
  | .interrupt _ => inferInstanceAs (Decidable True)
  | .resume _ => inferInstanceAs (Decidable True)

/-- The table after some calls. -/
def run (table : MonitorTable) (calls : List MonitorCall) : MonitorTable :=
  calls.foldl next table

/-- Every one of the calls comes when it is permitted. -/
def Lawful (table : MonitorTable) : List MonitorCall → Prop
  | [] => True
  | call :: rest => table.Permitted call ∧ (table.next call).Lawful rest

instance decidableLawful :
    (table : MonitorTable) → (calls : List MonitorCall) → Decidable (table.Lawful calls)
  | _, [] => inferInstanceAs (Decidable True)
  | table, call :: rest =>
      have := decidableLawful (table.next call) rest
      inferInstanceAs (Decidable (table.Permitted call ∧ (table.next call).Lawful rest))

theorem run_append (table : MonitorTable) (early late : List MonitorCall) :
    table.run (early ++ late) = (table.run early).run late :=
  List.foldl_append

theorem lawful_append {early late : List MonitorCall} :
    table.Lawful (early ++ late) ↔ table.Lawful early ∧ (table.run early).Lawful late := by
  induction early generalizing table with
  | nil => simp [Lawful, run]
  | cons call rest inductionHypothesis =>
      rw [List.cons_append, Lawful, Lawful, inductionHypothesis, and_assoc]
      rfl

theorem Sound.of_unqueued (sound : table.Sound) {thread : ThreadId}
    (unqueued : table.Unqueued thread) :
    table.entering? thread = none ∧ table.waitingFor? thread = none := by
  have nowhere : ∀ lock, ¬ Queued (table.monitorOf lock).entryQueue thread ∧
      ¬ Queued (table.monitorOf lock).signalQueue thread := by
    intro lock
    cases found : table.monitor? lock with
    | none =>
        rw [monitorOf, found]
        exact ⟨not_queued_nil thread, not_queued_nil thread⟩
    | some monitor =>
        rw [monitorOf, found]
        obtain ⟨entry, inside, -, value⟩ := Table.mem_of_get? found
        exact unqueued monitor (List.mem_map.2 ⟨entry, inside, value⟩)
  constructor
  · cases enters : table.entering? thread with
    | none => rfl
    | some lock => exact absurd ((sound.entering_iff thread lock).1 enters) (nowhere lock).1
  · cases awaits : table.waitingFor? thread with
    | none => rfl
    | some lock => exact absurd ((sound.waitingFor_iff thread lock).1 awaits) (nowhere lock).2

theorem Sound.unqueued (sound : table.Sound) {thread : ThreadId}
    (notEntering : table.entering? thread = none) (notWaiting : table.waitingFor? thread = none) :
    table.Unqueued thread := by
  intro monitor member
  obtain ⟨⟨lock, value⟩, inside, rfl⟩ := List.mem_map.1 member
  have found : table.monitor? lock = some value := Table.get?_of_mem inside
  have queues : table.monitorOf lock = value := by
    rw [monitorOf, found]
    rfl
  rw [← queues]
  exact ⟨sound.not_queued_of_not_entering notEntering lock,
    sound.not_queued_of_not_waiting notWaiting lock⟩

/-- A permitted call keeps a table sound. -/
theorem Sound.next (sound : table.Sound) (permitted : table.Permitted call) :
    (table.next call).Sound := by
  cases attempted : table.attempt call with
  | error fault =>
      rw [next_of_error attempted]
      exact sound
  | ok result =>
      obtain ⟨transition, after⟩ := result
      rw [next_of_ok attempted]
      cases call with
      | enter thread lock =>
          obtain ⟨notEntering, notWaiting⟩ := sound.of_unqueued permitted
          have entered := sound.enter lock notEntering notWaiting
          rw [Except.ok.inj attempted] at entered
          exact entered
      | leave thread lock => exact sound.leave attempted
      | wait thread lock timed =>
          obtain ⟨notEntering, notWaiting⟩ := sound.of_unqueued permitted
          exact sound.wait notEntering notWaiting attempted
      | notify thread lock => exact sound.notify (ok_of_signal attempted).2
      | notifyAll thread lock => exact sound.notifyAll (ok_of_signal attempted).2
      | interrupt thread =>
          have interrupted := sound.interrupt thread
          rw [Except.ok.inj attempted] at interrupted
          exact interrupted
      | resume thread =>
          have resumed := sound.resume thread
          rw [Except.ok.inj attempted] at resumed
          exact resumed

theorem Sound.run (sound : table.Sound) {calls : List MonitorCall}
    (lawful : table.Lawful calls) : (table.run calls).Sound := by
  induction calls generalizing table with
  | nil => exact sound
  | cons call rest inductionHypothesis =>
      exact inductionHypothesis (sound.next lawful.1) lawful.2

end MonitorTable

end ScheduleSearch
