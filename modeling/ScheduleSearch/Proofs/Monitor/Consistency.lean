import ScheduleSearch.Proofs.Monitor.Calls

/-!
# Tables of monitors stay consistent

The monitors, the two records of queued threads and the queues themselves are kept in step by
all operations, as long as a thread enters a lock or waits on one only while neither record has
an entry for it.  Then an owner can always let go once more, and an interrupt or a resumption
finds the place of its thread where the record says it is.
-/

namespace ScheduleSearch.MonitorTable

/-- A thread enters a lock or waits on one only while it is recorded as neither entering nor
waiting.  The other calls may come from any thread at any time. -/
def Admitted (table : MonitorTable) : MonitorCall → Prop
  | .enter thread _ => table.entering? thread = none ∧ table.waitingFor? thread = none
  | .wait thread _ _ => table.entering? thread = none ∧ table.waitingFor? thread = none
  | _ => True

instance (table : MonitorTable) : (call : MonitorCall) → Decidable (table.Admitted call)
  | .enter thread _ => inferInstanceAs (Decidable (table.entering? thread = none ∧ _))
  | .wait thread _ _ => inferInstanceAs (Decidable (table.entering? thread = none ∧ _))
  | .leave .. => inferInstanceAs (Decidable True)
  | .notify .. => inferInstanceAs (Decidable True)
  | .notifyAll .. => inferInstanceAs (Decidable True)
  | .interrupt _ => inferInstanceAs (Decidable True)
  | .resume _ => inferInstanceAs (Decidable True)

/-- Every one of the calls comes when it is admitted. -/
def AllAdmitted (table : MonitorTable) : List MonitorCall → Prop
  | [] => True
  | call :: rest => table.Admitted call ∧ (table.next call).AllAdmitted rest

instance decidableAllAdmitted :
    (table : MonitorTable) → (calls : List MonitorCall) → Decidable (table.AllAdmitted calls)
  | _, [] => inferInstanceAs (Decidable True)
  | table, call :: rest =>
      have := decidableAllAdmitted (table.next call) rest
      inferInstanceAs (Decidable (table.Admitted call ∧ (table.next call).AllAdmitted rest))

variable {table : MonitorTable} {calls : List MonitorCall} {thread : ThreadId} {lock : LockId}

/-- What the records admit, the queues permit. -/
theorem Sound.permitted (sound : table.Sound) {call : MonitorCall}
    (admitted : table.Admitted call) : table.Permitted call := by
  cases call with
  | enter thread lock => exact sound.unqueued admitted.1 admitted.2
  | wait thread lock timed => exact sound.unqueued admitted.1 admitted.2
  | leave thread lock => trivial
  | notify thread lock => trivial
  | notifyAll thread lock => trivial
  | interrupt thread => trivial
  | resume thread => trivial

private theorem Sound.lawful (sound : table.Sound) (admitted : table.AllAdmitted calls) :
    table.Lawful calls := by
  induction calls generalizing table with
  | nil => trivial
  | cons call rest inductionHypothesis =>
      have permitted := sound.permitted admitted.1
      exact ⟨permitted, inductionHypothesis (sound.next permitted) admitted.2⟩

/-- The places in both queues of a monitor. -/
def places (monitor : Monitor) : List Waiter :=
  monitor.entryQueue ++ monitor.signalQueue

/-- A thread has places in the queues of one lock at most. -/
theorem Sound.one_lock (sound : table.Sound) {other : LockId}
    (here : Queued (places (table.monitorOf lock)) thread)
    (there : Queued (places (table.monitorOf other)) thread) : lock = other := by
  rw [places, queued_append, ← sound.entering_iff, ← sound.waitingFor_iff] at here there
  rcases sound.apart thread with none | none
  · rw [none] at here there
    have first := here.resolve_left nofun
    exact Option.some.inj (first.symm.trans (there.resolve_left nofun))
  · rw [none] at here there
    have first := here.resolve_right nofun
    exact Option.some.inj (first.symm.trans (there.resolve_right nofun))

private theorem monitorOf_of_mem {entry : LockId × Monitor}
    (member : entry ∈ table.monitors.entries) :
    table.monitorOf entry.1 = entry.2 := by
  rw [monitorOf, monitor?, Table.get?_of_mem member]
  rfl

/-- No thread has two places in the queues of all monitors taken together. -/
theorem Sound.all_distinct (sound : table.Sound) :
    Distinct (table.monitors.values.flatMap places) := by
  refine List.pairwise_flatMap.2 ⟨?_, List.pairwise_map.2 ?_⟩
  · intro monitor member
    obtain ⟨entry, inside, rfl⟩ := List.mem_map.1 member
    rw [← monitorOf_of_mem inside]
    exact (sound.monitors entry.1).distinct
  · -- The entries stand in ascending order of their locks, so any two belong to different locks.
    refine table.monitors.ascending.imp_of_mem ?_
    intro first second firstMember secondMember below left leftMember right rightMember same
    rw [← monitorOf_of_mem firstMember] at leftMember
    rw [← monitorOf_of_mem secondMember] at rightMember
    have equal : first.1 = second.1 :=
      sound.one_lock ⟨left, leftMember, rfl⟩ ⟨right, rightMember, same.symm⟩
    rw [LockId.compare_eq_iff.2 equal] at below
    cases below

private theorem queued_of_ne_nil {queue : List Waiter} (nonempty : queue ≠ []) :
    ∃ thread, Queued queue thread := by
  obtain ⟨waiter, member⟩ := List.exists_mem_of_ne_nil queue nonempty
  exact ⟨waiter.thread, waiter, member, rfl⟩

private theorem used_of_not_idle {monitor : Monitor} (sound : monitor.Sound)
    (used : monitor.isIdle = false) :
    (∃ owner, monitor.owner = some owner) ∨ ∃ thread, Queued (places monitor) thread := by
  by_cases held : ∃ owner, monitor.owner = some owner
  · exact .inl held
  · refine .inr (queued_of_ne_nil fun empty => ?_)
    have free := Option.eq_none_iff_forall_not_mem.2 fun owner owned => held ⟨owner, owned⟩
    obtain ⟨entry, signal⟩ := List.append_eq_nil_iff.1 empty
    simp [Monitor.isIdle, free, entry, signal, sound.settled free] at used

/-- A monitor is recorded exactly while it is held or somebody has a place in its queues. -/
theorem Sound.isTracked_iff (sound : table.Sound) (lock : LockId) :
    table.isTracked lock = true ↔
      (∃ owner, table.owner? lock = some owner) ∨
        ∃ thread, Queued (places (table.monitorOf lock)) thread := by
  rw [owner?_eq]
  constructor
  · intro tracked
    obtain ⟨monitor, found⟩ := Table.contains_iff.1 tracked
    have used := used_of_not_idle (sound.monitors lock)
    have same : table.monitorOf lock = monitor := by
      rw [monitorOf, monitor?, found]
      rfl
    rw [same] at used ⊢
    exact used (sound.used lock monitor found)
  · rintro (⟨owner, owned⟩ | ⟨thread, queued⟩)
    · refine Table.contains_iff.2 ?_
      rw [← owner?_eq] at owned
      obtain ⟨monitor, found, -⟩ := Option.bind_eq_some_iff.1 owned
      exact ⟨monitor, found⟩
    · exact Table.contains_iff.2 ⟨_, monitor?_of_queued (queued_append.1 queued)⟩

/-- The parts of a table are in step with each other. -/
structure Consistent (table : MonitorTable) : Prop where
  held : ∀ lock, 0 < table.depth lock ↔ ∃ owner, table.owner? lock = some owner
  distinct : Distinct (table.monitors.values.flatMap places)
  ownerApart : ∀ lock owner, table.owner? lock = some owner →
    ¬ Queued (places (table.monitorOf lock)) owner
  entering : ∀ thread lock,
    table.entering? thread = some lock ↔ Queued (table.monitorOf lock).entryQueue thread
  waiting : ∀ thread lock,
    table.waitingFor? thread = some lock ↔ Queued (table.monitorOf lock).signalQueue thread
  saved : ∀ lock, ∀ waiter ∈ places (table.monitorOf lock), 1 ≤ waiter.depth
  pending : ∀ lock, table.pendingSignals lock ≤ (table.monitorOf lock).signalQueue.length
  settled : ∀ lock, table.owner? lock = none → table.pendingSignals lock = 0
  tracked : ∀ lock, table.isTracked lock = true ↔
    (∃ owner, table.owner? lock = some owner) ∨
      ∃ thread, Queued (places (table.monitorOf lock)) thread

/-- No operation meets a case that it need not be prepared for: an owner that leaves a lock has
entered it, and a thread that is interrupted or resumed has the place that is recorded. -/
structure Straightforward (table : MonitorTable) : Prop where
  leave : ∀ thread lock monitor, table.owned thread lock = .ok monitor → 1 ≤ monitor.depth
  interrupt : ∀ thread lock, table.waitingFor? thread = some lock →
    ∃ monitor depth, table.monitor? lock = some monitor ∧
      savedDepth? monitor.signalQueue thread = some depth
  resume : ∀ thread lock, table.entering? thread = some lock →
    ∃ monitor depth, table.monitor? lock = some monitor ∧
      savedDepth? monitor.entryQueue thread = some depth

private theorem pendingSignals_eq (table : MonitorTable) (lock : LockId) :
    table.pendingSignals lock = (table.monitorOf lock).pendingSignals := by
  unfold pendingSignals monitorOf
  cases table.monitor? lock <;> rfl

private theorem Sound.consistent (sound : table.Sound) : table.Consistent where
  held := by
    intro lock
    rw [depth_eq, owner?_eq]
    exact (sound.monitors lock).held
  distinct := sound.all_distinct
  ownerApart := by
    intro lock owner owned
    rw [owner?_eq] at owned
    exact (sound.monitors lock).ownerApart owner owned
  entering := sound.entering_iff
  waiting := sound.waitingFor_iff
  saved := fun lock => (sound.monitors lock).saved
  pending := by
    intro lock
    rw [pendingSignals_eq]
    exact (sound.monitors lock).pending
  settled := by
    intro lock
    rw [owner?_eq, pendingSignals_eq]
    exact (sound.monitors lock).settled
  tracked := sound.isTracked_iff

private theorem Sound.straightforward (sound : table.Sound) : table.Straightforward where
  leave := by
    intro thread lock monitor found
    by_cases owns : table.Owns thread lock
    · rw [owned_of_owns owns] at found
      cases found
      exact (sound.owner_apart owns).1
    · rw [owned_of_not_owns owns] at found
      cases found
  interrupt := by
    intro thread lock waits
    have queued := (sound.waitingFor_iff thread lock).1 waits
    obtain ⟨depth, saved⟩ := exists_savedDepth? queued
    exact ⟨_, depth, monitor?_of_queued (Or.inr queued), saved⟩
  resume := by
    intro thread lock enters
    have queued := (sound.entering_iff thread lock).1 enters
    obtain ⟨depth, saved⟩ := exists_savedDepth? queued
    exact ⟨_, depth, monitor?_of_queued (Or.inl queued), saved⟩

/-- The parts of a table stay in step through all calls that are admitted. -/
theorem consistent_run (admitted : empty.AllAdmitted calls) :
    (empty.run calls).Consistent ∧ (empty.run calls).Straightforward := by
  have sound := Sound.of_empty.run (Sound.of_empty.lawful admitted)
  exact ⟨sound.consistent, sound.straightforward⟩

/-- The root waits on a lock that its first child enters next.  It is interrupted, and the second
child is queued behind it. -/
def interruptedWait : List MonitorCall :=
  [.enter .root ⟨7⟩, .enter .root ⟨7⟩, .enter (.child .root 0) ⟨7⟩, .wait .root ⟨7⟩ false,
    .resume (.child .root 0), .notify (.child .root 0) ⟨7⟩, .interrupt .root,
    .enter (.child .root 1) ⟨7⟩]

theorem consistent_interruptedWait :
    empty.AllAdmitted interruptedWait ∧
      (empty.run interruptedWait).monitorOf ⟨7⟩ =
        ⟨some (.child .root 0), 1, [⟨.root, 2⟩, ⟨.child .root 1, 1⟩], [], 0⟩ ∧
      (empty.run interruptedWait).Consistent ∧ (empty.run interruptedWait).Straightforward := by
  have admitted : empty.AllAdmitted interruptedWait := by decide +kernel
  exact ⟨admitted, by decide +kernel, consistent_run admitted⟩

end ScheduleSearch.MonitorTable
