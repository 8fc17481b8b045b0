import ScheduleSearch.Proofs.Monitor.Soundness

/-!
# What operations on monitors mean for the threads

A thread gives a lock up by leaving it for the last time or by waiting on it.  Afterwards the
lock is free, and everybody in its entry queue is told so, the waiters among them to whom the
pending signals went.  An interrupt or a resumption concerns one thread and leaves the places
of all others as they are.
-/

namespace ScheduleSearch.MonitorTable

/-- `actor` gave up `lock`, and the threads in `woken` may try to enter it. -/
structure GivenUp (before after : MonitorTable) (actor : ThreadId) (lock : LockId)
    (woken : List ThreadId) : Prop where
  sound : after.Sound
  free : (after.monitorOf lock).owner = none
  elsewhere : ∀ other, other ≠ lock → after.monitorOf other = before.monitorOf other
  woken : ∀ thread, (∃ listed ∈ woken, thread.lineage = listed.lineage) ↔
    after.entering? thread = some lock
  others : ∀ thread, thread.lineage ≠ actor.lineage →
    (after.entering? thread = before.entering? thread ∧
        after.waitingFor? thread = before.waitingFor? thread) ∨
      (after.entering? thread = some lock ∧ after.waitingFor? thread = none ∧
        before.waitingFor? thread = some lock)

variable {table : MonitorTable} {thread : ThreadId} {lock : LockId}

private theorem mem_map_thread_iff {queue : List Waiter} {thread : ThreadId} :
    (∃ listed ∈ queue.map (·.thread), thread.lineage = listed.lineage) ↔ Queued queue thread := by
  constructor
  · rintro ⟨listed, member, same⟩
    obtain ⟨waiter, inside, rfl⟩ := List.mem_map.1 member
    exact ⟨waiter, inside, same.symm⟩
  · rintro ⟨waiter, inside, same⟩
    exact ⟨waiter.thread, List.mem_map_of_mem inside, same.symm⟩

/-- What a release does, given what the thread that lets go did to its own records. -/
private theorem GivenUp.of_release (sound : table.Sound) {before : MonitorTable} {monitor : Monitor}
    (soundAfter : (before.release lock monitor).2.Sound)
    (kept : before.monitors = table.monitors)
    (enters : ∀ other, other.lineage ≠ thread.lineage →
      before.entering? other = table.entering? other)
    (awaits : ∀ other, other.lineage ≠ thread.lineage →
      before.waitingFor? other = table.waitingFor? other)
    (signalled : ∀ other, other.lineage ≠ thread.lineage → Queued monitor.signalled other →
      Queued (table.monitorOf lock).signalQueue other) :
    GivenUp table (before.release lock monitor).2 thread lock
      (monitor.released.entryQueue.map (·.thread)) := by
  have now : (before.release lock monitor).2.monitorOf lock = monitor.released := by
    rw [monitorOf_release, if_pos rfl]
  constructor
  · exact soundAfter
  · rw [now]
    rfl
  · intro other different
    rw [monitorOf_release, if_neg different]
    exact monitorOf_eq_of_monitor?_eq (by rw [monitor?, monitor?, kept])
  · intro other
    rw [mem_map_thread_iff, soundAfter.entering_iff, now]
  · intro other different
    rw [entering?_release, waitingFor?_release]
    by_cases woken : Queued monitor.signalled other
    · refine Or.inr ⟨if_pos woken, if_pos woken, ?_⟩
      exact (sound.waitingFor_iff other lock).2 (signalled other different woken)
    · rw [if_neg woken, if_neg woken]
      exact Or.inl ⟨enters other different, awaits other different⟩

theorem get?_insert_of_ne {places : Table ThreadId LockId} {other : ThreadId}
    (different : other.lineage ≠ thread.lineage) :
    (places.insert thread lock).get? other = places.get? other := by
  rw [Table.get?_insert]
  exact if_neg fun same => different (ThreadId.compare_eq_iff.1 same)

private theorem get?_erase_of_ne {places : Table ThreadId LockId} {other : ThreadId}
    (different : other.lineage ≠ thread.lineage) :
    (places.erase thread).get? other = places.get? other := by
  rw [Table.get?_erase]
  exact if_neg fun same => different (ThreadId.compare_eq_iff.1 same)

/-- No pending signal is for the thread that joins the signal queue as it gives the lock up. -/
theorem signalled_awaiting (sound : table.Sound) (thread : ThreadId) (lock : LockId) :
    (awaiting (table.monitorOf lock) thread).signalled = (table.monitorOf lock).signalled := by
  have few := (sound.monitors lock).pending
  change ((table.monitorOf lock).signalQueue ++ _).take (table.monitorOf lock).pendingSignals = _
  rw [List.take_append_of_le_length few]
  rfl

theorem queued_of_signalled {monitor : Monitor} (queued : Queued monitor.signalled thread) :
    Queued monitor.signalQueue thread := by
  obtain ⟨waiter, member, same⟩ := queued
  exact ⟨waiter, List.mem_of_mem_take member, same⟩

/-- Leaving a lock for the last time gives it up. -/
theorem leave_givesUp (sound : table.Sound) (owns : table.Owns thread lock)
    (notWaiting : table.waitingFor? thread = none)
    (last : (table.monitorOf lock).depth ≤ 1) :
    ∃ woken after, table.leave thread lock = .ok (.unblock woken, after) ∧
      GivenUp table after thread lock woken ∧ after.waitingFor? thread = none := by
  have left := leave_last owns last
  refine ⟨_, _, left, ?_, ?_⟩
  · exact GivenUp.of_release sound (sound.leave left) rfl (fun _ _ => rfl) (fun _ _ => rfl)
      (fun _ _ => queued_of_signalled)
  · rw [waitingFor?_release]
    split
    · rfl
    · exact notWaiting

/-- A thread that waits with a time limit gives the lock up and queues to enter it again. -/
theorem wait_timed_givesUp (sound : table.Sound) (owns : table.Owns thread lock)
    (notEntering : table.entering? thread = none) (notWaiting : table.waitingFor? thread = none) :
    ∃ woken after, table.wait thread lock true = .ok (⟨[], woken⟩, after) ∧
      GivenUp table after thread lock woken ∧ after.waitingFor? thread = none := by
  have waited := wait_timed owns
  have soundAfter := sound.wait notEntering notWaiting waited
  have enters : ∀ other, other.lineage ≠ thread.lineage →
      (table.entering.insert thread lock).get? other = table.entering.get? other :=
    fun _ different => get?_insert_of_ne different
  have given := GivenUp.of_release sound soundAfter rfl enters (fun _ _ => rfl)
    (fun _ _ => queued_of_signalled)
  refine ⟨_, _, waited, given, ?_⟩
  rw [waitingFor?_release]
  split
  · rfl
  · exact notWaiting

/-- A thread that waits without a time limit gives the lock up and awaits a signal. -/
theorem wait_untimed_givesUp (sound : table.Sound) (owns : table.Owns thread lock)
    (notEntering : table.entering? thread = none) (notWaiting : table.waitingFor? thread = none) :
    ∃ woken after, table.wait thread lock false = .ok (⟨[thread], woken⟩, after) ∧
      GivenUp table after thread lock woken ∧ after.entering? thread = none ∧
      after.waitingFor? thread = some lock := by
  have waited := wait_untimed owns
  have soundAfter := sound.wait notEntering notWaiting waited
  have same := signalled_awaiting sound thread lock
  have awaits : ∀ other, other.lineage ≠ thread.lineage →
      (table.waiting.insert thread lock).get? other = table.waiting.get? other :=
    fun _ different => get?_insert_of_ne different
  have signalled : ∀ other, other.lineage ≠ thread.lineage →
      Queued (awaiting (table.monitorOf lock) thread).signalled other →
      Queued (table.monitorOf lock).signalQueue other := by
    intro other _ queued
    rw [same] at queued
    exact queued_of_signalled queued
  have given := GivenUp.of_release sound soundAfter rfl (fun _ _ => rfl) awaits signalled
  have notSignalled : ¬ Queued (awaiting (table.monitorOf lock) thread).signalled thread := by
    rw [same]
    exact fun queued =>
      sound.not_queued_of_not_waiting notWaiting lock (queued_of_signalled queued)
  refine ⟨_, _, waited, given, ?_, ?_⟩
  · rw [entering?_release, if_neg notSignalled]
    exact notEntering
  · rw [waitingFor?_release, if_neg notSignalled, waitingFor?_mk, Table.get?_insert]
    exact if_pos (ThreadId.compare_eq_iff.2 rfl)

/-- The places of one thread and the owners of some locks differ. -/
structure Moved (before after : MonitorTable) (thread : ThreadId) : Prop where
  sound : after.Sound
  entering : ∀ other, other.lineage ≠ thread.lineage →
    after.entering? other = before.entering? other
  waiting : ∀ other, other.lineage ≠ thread.lineage →
    after.waitingFor? other = before.waitingFor? other
  owner : ∀ lock owner, (before.monitorOf lock).owner = some owner →
    (after.monitorOf lock).owner = some owner

private theorem owner_insert {lock : LockId} {monitor : Monitor}
    (kept : ∀ owner, (table.monitorOf lock).owner = some owner → monitor.owner = some owner)
    (entering waiting : Table ThreadId LockId) (other : LockId) (owner : ThreadId)
    (held : (table.monitorOf other).owner = some owner) :
    ((⟨table.monitors.insert lock monitor, entering, waiting⟩ : MonitorTable).monitorOf
      other).owner = some owner := by
  rw [monitorOf_insert]
  by_cases here : other = lock
  · rw [if_pos here]
    rw [here] at held
    exact kept owner held
  · rw [if_neg here]
    exact held

theorem owner_record {lock : LockId} {monitor : Monitor}
    (kept : ∀ owner, (table.monitorOf lock).owner = some owner → monitor.owner = some owner)
    (other : LockId) (owner : ThreadId) (held : (table.monitorOf other).owner = some owner) :
    ((table.record lock monitor).monitorOf other).owner = some owner :=
  owner_insert kept table.entering table.waiting other owner held

/-- An interrupted waiter wants to enter its lock. -/
theorem interrupt_moves (sound : table.Sound) (awaits : table.waitingFor? thread = some lock) :
    Moved table (table.interrupt thread).2 thread ∧
      (table.interrupt thread).2.entering? thread = some lock ∧
      (table.interrupt thread).2.waitingFor? thread = none := by
  have soundAfter := sound.interrupt thread
  have queued := (sound.waitingFor_iff thread lock).1 awaits
  obtain ⟨depth, saved, effect⟩ := interrupt_of_waiting awaits queued
  rw [effect] at soundAfter ⊢
  have kept : ∀ owner, (table.monitorOf lock).owner = some owner →
      (interrupted (table.monitorOf lock) thread depth).owner = some owner := fun _ => id
  refine ⟨⟨soundAfter, ?_, ?_, owner_insert kept _ _⟩, ?_, ?_⟩
  · intro other different
    exact get?_insert_of_ne different
  · intro other different
    exact get?_erase_of_ne different
  · exact (Table.get?_insert ..).trans (if_pos (ThreadId.compare_eq_iff.2 rfl))
  · exact (Table.get?_erase ..).trans (if_pos (ThreadId.compare_eq_iff.2 rfl))

/-- A thread that is granted the lock it wants owns it and wants none. -/
theorem resume_moves (sound : table.Sound) (enters : table.entering? thread = some lock)
    (free : (table.monitorOf lock).owner = none) :
    ∃ after, table.resume thread = (.none, after) ∧ Moved table after thread ∧
      after.entering? thread = none ∧ (after.monitorOf lock).owner = some thread := by
  have soundAfter := sound.resume thread
  have queued := (sound.entering_iff thread lock).1 enters
  obtain ⟨depth, saved, effect⟩ := resume_free enters queued free
  rw [effect] at soundAfter
  refine ⟨_, effect, ⟨soundAfter, ?_, fun _ _ => rfl, ?_⟩, ?_, ?_⟩
  · intro other different
    exact get?_erase_of_ne different
  · refine owner_insert ?_ _ _
    intro owner held
    rw [free] at held
    cases held
  · exact (Table.get?_erase ..).trans (if_pos (ThreadId.compare_eq_iff.2 rfl))
  · rw [monitorOf_insert, if_pos rfl]
    rfl

end ScheduleSearch.MonitorTable
