import Mathlib.Algebra.GroupWithZero.Nat
import Mathlib.Algebra.BigOperators.Group.List.Basic
import ScheduleSearch.Proofs.Monitor.Soundness

/-!
# The share a thread has in a lock

How often a thread entered a lock without leaving it is written down in one of three places:
in the depth of the monitor while the thread owns it, and else with its place in the entry
queue or in the signal queue.  Its *share* is what these places say together.  Entering adds
one to the share, leaving takes one away, and nothing else changes it.
-/

namespace ScheduleSearch

/-- The depths saved for a thread in a queue, added up. -/
def weight (queue : List Waiter) (thread : ThreadId) : Nat :=
  (queue.map fun waiter => if waiter.thread.lineage = thread.lineage then waiter.depth else 0).sum

@[simp]
theorem weight_nil (thread : ThreadId) : weight [] thread = 0 := rfl

@[simp]
private theorem weight_cons (waiter : Waiter) (queue : List Waiter) (thread : ThreadId) :
    weight (waiter :: queue) thread =
      (if waiter.thread.lineage = thread.lineage then waiter.depth else 0) +
        weight queue thread := by
  simp only [weight, List.map_cons, List.sum_cons]

@[simp]
private theorem weight_append (first second : List Waiter) (thread : ThreadId) :
    weight (first ++ second) thread = weight first thread + weight second thread := by
  simp only [weight, List.map_append, List.sum_append]

private theorem Rearranged.weight {first second : List Waiter} (order : Rearranged first second)
    (thread : ThreadId) : weight first thread = weight second thread := by
  have places := (List.Perm.map
    (fun place : List Nat × Nat => if place.1 = thread.lineage then place.2 else 0) order).sum_eq
  rw [List.map_map, List.map_map] at places
  exact places

private theorem weight_of_not_queued {queue : List Waiter} {thread : ThreadId}
    (absent : ¬ Queued queue thread) : weight queue thread = 0 := by
  induction queue with
  | nil => rfl
  | cons head rest inductionHypothesis =>
      rw [queued_cons, not_or] at absent
      rw [weight_cons, if_neg absent.1, inductionHypothesis absent.2]

private theorem weight_of_savedDepth? {queue : List Waiter} {thread : ThreadId} {depth : Nat}
    (distinct : Distinct queue) (saved : savedDepth? queue thread = some depth) :
    weight queue thread = depth := by
  have order := rearranged_withoutWaiter saved
  have gone : ¬ Queued (withoutWaiter queue thread) thread := by
    rw [queued_withoutWaiter distinct]
    exact fun queued => queued.2 rfl
  rw [order.weight, weight_cons, if_pos rfl, weight_of_not_queued gone, Nat.add_zero]

namespace Monitor

variable {monitor : Monitor}

/-- The depth to which a thread holds the lock. -/
def heldDepth (monitor : Monitor) (thread : ThreadId) : Nat :=
  if monitor.isOwnedBy thread then monitor.depth else 0

/-- What is written down for a thread in a monitor. -/
def share (monitor : Monitor) (thread : ThreadId) : Nat :=
  monitor.heldDepth thread + weight (monitor.entryQueue ++ monitor.signalQueue) thread

private theorem share_of_owner (monitor : Monitor) {owner : ThreadId}
    (held : monitor.owner = some owner) (thread : ThreadId) :
    monitor.share thread =
      (if owner.lineage = thread.lineage then monitor.depth else 0) +
        weight (monitor.entryQueue ++ monitor.signalQueue) thread := by
  unfold share heldDepth
  by_cases same : owner.lineage = thread.lineage
  · rw [if_pos same, if_pos (isOwnedBy_iff.2 ⟨owner, held, same⟩)]
  · rw [if_neg same, if_neg]
    intro owned
    obtain ⟨other, found, equal⟩ := isOwnedBy_iff.1 owned
    rw [held] at found
    rw [Option.some.inj found] at same
    exact same equal

private theorem share_of_free (monitor : Monitor) (free : monitor.owner = none)
    (thread : ThreadId) :
    monitor.share thread = weight (monitor.entryQueue ++ monitor.signalQueue) thread := by
  unfold share heldDepth
  rw [if_neg, Nat.zero_add]
  intro owned
  obtain ⟨other, found, -⟩ := isOwnedBy_iff.1 owned
  rw [free] at found
  cases found

private theorem share_released (monitor : Monitor) (thread : ThreadId) :
    monitor.released.share thread =
      weight (monitor.entryQueue ++ monitor.signalQueue) thread := by
  rw [share_of_free monitor.released rfl, released_queues]

end Monitor

namespace MonitorTable

variable {table : MonitorTable} {thread : ThreadId} {lock : LockId}

/-- The share a thread has in a lock. -/
def share (table : MonitorTable) (thread : ThreadId) (lock : LockId) : Nat :=
  (table.monitorOf lock).share thread

/-- One, if the two threads and the two locks are the same. -/
def unit (actor : ThreadId) (entered : LockId) (thread : ThreadId) (lock : LockId) : Nat :=
  if actor.lineage = thread.lineage ∧ entered = lock then 1 else 0

theorem unit_here (actor thread : ThreadId) (lock : LockId) :
    unit actor lock thread lock = if actor.lineage = thread.lineage then 1 else 0 := by
  unfold unit
  simp only [and_true]

theorem unit_elsewhere (actor thread : ThreadId) {entered other : LockId}
    (different : other ≠ entered) : unit actor entered thread other = 0 := by
  unfold unit
  rw [if_neg]
  exact fun both => different both.2.symm

/-- Entering a lock adds one to the share of the thread that enters. -/
theorem Sound.share_enter (sound : table.Sound) (actor : ThreadId) (entered : LockId)
    (thread : ThreadId) (lock : LockId) :
    (table.enter actor entered).2.share thread lock =
      table.share thread lock + unit actor entered thread lock := by
  have monitorSound := sound.monitors entered
  by_cases here : lock = entered
  · subst here
    rw [unit_here]
    unfold share
    cases held : (table.monitorOf lock).owner with
    | none =>
        have now := Monitor.share_of_owner
          { table.monitorOf lock with owner := some actor, depth := 1 } rfl thread
        rw [enter_free held, monitorOf_record, if_pos rfl, now,
          Monitor.share_of_free (table.monitorOf lock) held]
        dsimp only
        omega
    | some owner =>
        have before := Monitor.share_of_owner (table.monitorOf lock) held thread
        by_cases same : owner.lineage = actor.lineage
        · have now := Monitor.share_of_owner
            { table.monitorOf lock with depth := (table.monitorOf lock).depth + 1 } held thread
          rw [enter_again held same, monitorOf_record, if_pos rfl, now, before, same]
          dsimp only
          split <;> omega
        · have now := Monitor.share_of_owner
            { table.monitorOf lock with
              entryQueue := (table.monitorOf lock).entryQueue ++ [⟨actor, 1⟩] } held thread
          rw [enter_held held same, monitorOf_insert, if_pos rfl, now, before]
          simp only [weight_append, weight_cons, weight_nil]
          omega
  · rw [unit_elsewhere actor thread here, Nat.add_zero]
    unfold share
    cases held : (table.monitorOf entered).owner with
    | none => rw [enter_free held, monitorOf_record, if_neg here]
    | some owner =>
        by_cases same : owner.lineage = actor.lineage
        · rw [enter_again held same, monitorOf_record, if_neg here]
        · rw [enter_held held same, monitorOf_insert, if_neg here]

/-- Leaving a lock takes one from the share of the thread that leaves. -/
theorem Sound.share_leave (sound : table.Sound) {actor : ThreadId} {left : LockId}
    {transition : Transition} {after : MonitorTable}
    (effect : table.leave actor left = .ok (transition, after)) (thread : ThreadId)
    (lock : LockId) :
    after.share thread lock + unit actor left thread lock = table.share thread lock := by
  by_cases owns : table.Owns actor left
  · obtain ⟨owner, held, same⟩ := owns
    have positive := (sound.monitors left).held.2 ⟨owner, held⟩
    by_cases inner : 1 < (table.monitorOf left).depth
    · rw [leave_inner ⟨owner, held, same⟩ inner] at effect
      cases effect
      by_cases here : lock = left
      · subst here
        have before := Monitor.share_of_owner (table.monitorOf lock) held thread
        have now := Monitor.share_of_owner
          { table.monitorOf lock with depth := (table.monitorOf lock).depth - 1 } held thread
        unfold share
        rw [unit_here, monitorOf_record, if_pos rfl, now, before, same]
        dsimp only
        split <;> omega
      · rw [unit_elsewhere actor thread here]
        unfold share
        rw [monitorOf_record, if_neg here]
        rfl
    · rw [leave_last ⟨owner, held, same⟩ (by omega)] at effect
      cases effect
      by_cases here : lock = left
      · subst here
        have before := Monitor.share_of_owner (table.monitorOf lock) held thread
        unfold share
        rw [unit_here, monitorOf_release, if_pos rfl, Monitor.share_released, before, same]
        dsimp only
        split <;> omega
      · rw [unit_elsewhere actor thread here]
        unfold share
        rw [monitorOf_release, if_neg here]
        rfl
  · rw [leave_of_not_owns owns] at effect
    cases effect

theorem share_wait {actor : ThreadId} {awaited : LockId} {timed : Bool}
    {transition : Transition} {after : MonitorTable}
    (effect : table.wait actor awaited timed = .ok (transition, after)) (thread : ThreadId)
    (lock : LockId) : after.share thread lock = table.share thread lock := by
  by_cases owns : table.Owns actor awaited
  · obtain ⟨owner, held, same⟩ := owns
    have kept : (⟨actor, (table.monitorOf awaited).depth⟩ : Waiter).thread.lineage =
        owner.lineage := same.symm
    cases timed with
    | true =>
        rw [wait_timed ⟨owner, held, same⟩] at effect
        cases effect
        unfold share
        rw [monitorOf_release]
        by_cases here : lock = awaited
        · subst here
          rw [if_pos rfl, Monitor.share_released,
            (rearranged_requeued (table.monitorOf lock) actor).weight, weight_cons, kept,
            Monitor.share_of_owner (table.monitorOf lock) held]
        · rw [if_neg here]
          rfl
    | false =>
        rw [wait_untimed ⟨owner, held, same⟩] at effect
        cases effect
        unfold share
        rw [monitorOf_release]
        by_cases here : lock = awaited
        · subst here
          rw [if_pos rfl, Monitor.share_released,
            (rearranged_awaiting (table.monitorOf lock) actor).weight, weight_cons, kept,
            Monitor.share_of_owner (table.monitorOf lock) held]
        · rw [if_neg here]
          rfl
  · rw [wait_of_not_owns timed owns] at effect
    cases effect

private theorem share_record_signals (table : MonitorTable) (signalled : LockId) (pending : Nat)
    (thread : ThreadId) (lock : LockId) :
    (table.record signalled
      { table.monitorOf signalled with pendingSignals := pending }).share thread lock =
      table.share thread lock := by
  unfold share
  rw [monitorOf_record]
  by_cases here : lock = signalled
  · rw [if_pos here, here]
    rfl
  · rw [if_neg here]

theorem share_notify {actor : ThreadId} {signalled : LockId} {after : MonitorTable}
    (effect : table.notify actor signalled = .ok after) (thread : ThreadId) (lock : LockId) :
    after.share thread lock = table.share thread lock := by
  by_cases owns : table.Owns actor signalled
  · rw [notify_of_owns owns] at effect
    cases effect
    exact share_record_signals table signalled _ thread lock
  · rw [notify_of_not_owns owns] at effect
    cases effect

theorem share_notifyAll {actor : ThreadId} {signalled : LockId} {after : MonitorTable}
    (effect : table.notifyAll actor signalled = .ok after) (thread : ThreadId) (lock : LockId) :
    after.share thread lock = table.share thread lock := by
  by_cases owns : table.Owns actor signalled
  · rw [notifyAll_of_owns owns] at effect
    cases effect
    exact share_record_signals table signalled _ thread lock
  · rw [notifyAll_of_not_owns owns] at effect
    cases effect

theorem Sound.share_interrupt (sound : table.Sound) (target thread : ThreadId) (lock : LockId) :
    (table.interrupt target).2.share thread lock = table.share thread lock := by
  cases awaits : table.waitingFor? target with
  | none => rw [interrupt_of_not_waiting awaits]
  | some awaited =>
      have queued := (sound.waitingFor_iff target awaited).1 awaits
      obtain ⟨depth, saved, effect⟩ := interrupt_of_waiting awaits queued
      rw [effect]
      unfold share
      rw [monitorOf_insert]
      by_cases here : lock = awaited
      · subst here
        rw [if_pos rfl]
        unfold Monitor.share
        rw [(rearranged_interrupted saved).weight]
        rfl
      · rw [if_neg here]

/-- The thread that is granted a lock holds it to the depth that was saved for it. -/
theorem Sound.share_resume (sound : table.Sound) (next thread : ThreadId) (lock : LockId) :
    (table.resume next).2.share thread lock = table.share thread lock := by
  cases enters : table.entering? next with
  | none => rw [resume_of_not_entering enters]
  | some wanted =>
      have queued := (sound.entering_iff next wanted).1 enters
      cases owner : (table.monitorOf wanted).owner with
      | some holder => rw [resume_held enters queued (Monitor.isHeld_iff.2 ⟨holder, owner⟩)]
      | none =>
          obtain ⟨depth, saved, effect⟩ := resume_free enters queued owner
          rw [effect]
          unfold share
          rw [monitorOf_insert]
          by_cases here : lock = wanted
          · subst here
            have order := (rearranged_granted saved).weight thread
            have now := Monitor.share_of_owner (granted (table.monitorOf lock) next depth) rfl
              thread
            rw [if_pos rfl, now, Monitor.share_of_free (table.monitorOf lock) owner, order,
              weight_cons]
            rfl
          · rw [if_neg here]

theorem Sound.share_of_owns (sound : table.Sound) (owns : table.Owns thread lock) :
    table.share thread lock = (table.monitorOf lock).depth ∧
      0 < (table.monitorOf lock).depth := by
  obtain ⟨owner, held, same⟩ := owns
  have notQueued := (sound.monitors lock).owner_not_queued ⟨owner, held, same⟩
  have absent : ¬ Queued ((table.monitorOf lock).entryQueue ++
      (table.monitorOf lock).signalQueue) thread := by
    rw [queued_append]
    exact fun queued => queued.elim notQueued.1 notQueued.2
  refine ⟨?_, (sound.monitors lock).held.2 ⟨owner, held⟩⟩
  rw [share, Monitor.share_of_owner _ held, if_pos same, weight_of_not_queued absent, Nat.add_zero]

/-- A thread with a place in a queue does not own the lock. -/
theorem Sound.not_owns_of_queued (sound : table.Sound)
    (queued : Queued (table.monitorOf lock).entryQueue thread ∨
      Queued (table.monitorOf lock).signalQueue thread) : ¬ table.Owns thread lock := by
  intro owns
  have notQueued := (sound.monitors lock).owner_not_queued owns
  exact queued.elim notQueued.1 notQueued.2

private theorem share_of_not_owns (foreign : ¬ table.Owns thread lock) :
    table.share thread lock = weight (table.monitorOf lock).entryQueue thread +
      weight (table.monitorOf lock).signalQueue thread := by
  rw [← weight_append, share]
  cases held : (table.monitorOf lock).owner with
  | none => exact Monitor.share_of_free _ held thread
  | some owner =>
      rw [Monitor.share_of_owner _ held, if_neg, Nat.zero_add]
      exact fun same => foreign ⟨owner, held, same⟩

theorem queued_of_savedDepth? {queue : List Waiter} {depth : Nat}
    (saved : savedDepth? queue thread = some depth) : Queued queue thread := by
  obtain ⟨waiter, member, same, -⟩ := mem_of_savedDepth? saved
  exact ⟨waiter, member, same⟩

theorem Sound.share_of_entry (sound : table.Sound) {depth : Nat}
    (saved : savedDepth? (table.monitorOf lock).entryQueue thread = some depth) :
    table.share thread lock = depth ∧ 0 < depth := by
  have monitorSound := sound.monitors lock
  have queued := queued_of_savedDepth? saved
  have elsewhere := monitorSound.queuesApart queued
  obtain ⟨waiter, member, -, depthHere⟩ := mem_of_savedDepth? saved
  constructor
  · rw [share_of_not_owns (sound.not_owns_of_queued (Or.inl queued)),
      weight_of_savedDepth? monitorSound.entryDistinct saved, weight_of_not_queued elsewhere,
      Nat.add_zero]
  · rw [← depthHere]
    exact monitorSound.saved waiter (List.mem_append_left _ member)

theorem Sound.share_of_signal (sound : table.Sound) {depth : Nat}
    (saved : savedDepth? (table.monitorOf lock).signalQueue thread = some depth) :
    table.share thread lock = depth ∧ 0 < depth := by
  have monitorSound := sound.monitors lock
  have queued := queued_of_savedDepth? saved
  have elsewhere : ¬ Queued (table.monitorOf lock).entryQueue thread := fun entry =>
    monitorSound.queuesApart entry queued
  obtain ⟨waiter, member, -, depthHere⟩ := mem_of_savedDepth? saved
  constructor
  · rw [share_of_not_owns (sound.not_owns_of_queued (Or.inr queued)),
      weight_of_savedDepth? monitorSound.signalDistinct saved, weight_of_not_queued elsewhere,
      Nat.zero_add]
  · rw [← depthHere]
    exact monitorSound.saved waiter (List.mem_append_right _ member)

theorem share_of_absent (foreign : ¬ table.Owns thread lock)
    (notEntry : ¬ Queued (table.monitorOf lock).entryQueue thread)
    (notSignal : ¬ Queued (table.monitorOf lock).signalQueue thread) :
    table.share thread lock = 0 := by
  rw [share_of_not_owns foreign, weight_of_not_queued notEntry, weight_of_not_queued notSignal]

end MonitorTable

end ScheduleSearch
