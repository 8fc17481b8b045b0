import ScheduleSearch.Proofs.Monitor.Effects

/-!
# Sound tables of monitors

`Monitor.Sound` and `MonitorTable.Sound` say what holds of the monitors as long as a thread
enters a lock or waits on one only while it has no place in any queue.  Every other operation
may come from any thread at any time.
-/

namespace ScheduleSearch

/-- What holds of a single monitor. -/
structure Monitor.Sound (monitor : Monitor) : Prop where
  held : 0 < monitor.depth ↔ ∃ owner, monitor.owner = some owner
  distinct : Distinct (monitor.entryQueue ++ monitor.signalQueue)
  ownerApart : ∀ owner, monitor.owner = some owner →
    ¬ Queued (monitor.entryQueue ++ monitor.signalQueue) owner
  saved : ∀ waiter ∈ monitor.entryQueue ++ monitor.signalQueue, 0 < waiter.depth
  pending : monitor.pendingSignals ≤ monitor.signalQueue.length
  settled : monitor.owner = none → monitor.pendingSignals = 0

namespace Monitor

variable {monitor : Monitor}

private theorem Sound.of_free : free.Sound where
  held := by simp [free]
  distinct := List.Pairwise.nil
  ownerApart := by
    intro owner impossible
    cases impossible
  saved := by
    intro waiter member
    cases member
  pending := Nat.le_refl 0
  settled := fun _ => rfl

theorem Sound.entryDistinct (sound : monitor.Sound) : Distinct monitor.entryQueue :=
  (distinct_append.1 sound.distinct).1

theorem Sound.signalDistinct (sound : monitor.Sound) : Distinct monitor.signalQueue :=
  (distinct_append.1 sound.distinct).2.1

theorem Sound.queuesApart (sound : monitor.Sound) {thread : ThreadId}
    (entry : Queued monitor.entryQueue thread) : ¬ Queued monitor.signalQueue thread :=
  (distinct_append.1 sound.distinct).2.2 thread entry

/-- The owner of a monitor has no place in its queues. -/
theorem Sound.owner_not_queued (sound : monitor.Sound) {thread : ThreadId}
    (owns : ∃ owner, monitor.owner = some owner ∧ owner.lineage = thread.lineage) :
    ¬ Queued monitor.entryQueue thread ∧ ¬ Queued monitor.signalQueue thread := by
  obtain ⟨owner, held, same⟩ := owns
  have apart := sound.ownerApart owner held
  rw [queued_congr same, queued_append] at apart
  exact ⟨fun entry => apart (Or.inl entry), fun signal => apart (Or.inr signal)⟩

/-- Only the order of the waiters differs between the queues before and after a delivery. -/
theorem released_queues (monitor : Monitor) :
    monitor.released.entryQueue ++ monitor.released.signalQueue =
      monitor.entryQueue ++ monitor.signalQueue := by
  change (monitor.entryQueue ++ monitor.signalQueue.take monitor.pendingSignals) ++
    monitor.signalQueue.drop monitor.pendingSignals = monitor.entryQueue ++ monitor.signalQueue
  rw [List.append_assoc, List.take_append_drop]

private theorem Sound.of_released
    (distinct : Distinct (monitor.entryQueue ++ monitor.signalQueue))
    (saved : ∀ waiter ∈ monitor.entryQueue ++ monitor.signalQueue, 0 < waiter.depth) :
    monitor.released.Sound where
  held := by simp [released]
  distinct := by
    rw [released_queues]
    exact distinct
  ownerApart := by
    intro owner impossible
    cases impossible
  saved := by
    rw [released_queues]
    exact saved
  pending := Nat.zero_le _
  settled := fun _ => rfl

/-- A change of owner, depth and signals that leaves both queues alone. -/
private theorem Sound.of_same_queues (sound : monitor.Sound) {changed : Monitor}
    (entry : changed.entryQueue = monitor.entryQueue)
    (signal : changed.signalQueue = monitor.signalQueue)
    (held : 0 < changed.depth ∧ ∃ owner, changed.owner = some owner ∧
      ¬ Queued monitor.entryQueue owner ∧ ¬ Queued monitor.signalQueue owner)
    (pending : changed.pendingSignals ≤ monitor.signalQueue.length) : changed.Sound := by
  obtain ⟨positive, owner, owned, notEntry, notSignal⟩ := held
  constructor
  · exact ⟨fun _ => ⟨owner, owned⟩, fun _ => positive⟩
  · rw [entry, signal]
    exact sound.distinct
  · intro other otherOwns
    have same : owner = other := Option.some.inj (owned.symm.trans otherOwns)
    rw [← same, entry, signal, queued_append]
    exact fun queued => queued.elim notEntry notSignal
  · rw [entry, signal]
    exact sound.saved
  · rw [signal]
    exact pending
  · intro unowned
    rw [owned] at unowned
    cases unowned

/-- A thread that does not hold the lock takes the last place of the entry queue. -/
private theorem Sound.of_joined (sound : monitor.Sound) {thread owner : ThreadId}
    (held : monitor.owner = some owner) (different : owner.lineage ≠ thread.lineage)
    (notEntry : ¬ Queued monitor.entryQueue thread)
    (notSignal : ¬ Queued monitor.signalQueue thread) :
    { monitor with entryQueue := monitor.entryQueue ++ [⟨thread, 1⟩] : Monitor }.Sound := by
  have order : Rearranged (monitor.entryQueue ++ [⟨thread, 1⟩] ++ monitor.signalQueue)
      (⟨thread, 1⟩ :: (monitor.entryQueue ++ monitor.signalQueue)) := rearranged_cons _
  constructor
  · exact sound.held
  · refine order.distinct (sound.distinct.cons ?_)
    rw [queued_append]
    exact fun queued => queued.elim notEntry notSignal
  · intro other otherOwns queued
    have same : owner = other := Option.some.inj (held.symm.trans otherOwns)
    rw [← same] at queued
    rcases queued_cons.1 (order.queued queued) with here | elsewhere
    · exact different here.symm
    · exact sound.ownerApart owner held elsewhere
  · refine order.saved fun waiter member => ?_
    rcases List.mem_cons.1 member with here | elsewhere
    · rw [here]
      exact Nat.one_pos
    · exact sound.saved waiter elsewhere
  · exact sound.pending
  · exact sound.settled

/-- A waiter moves from the signal queue to the entry queue. -/
private theorem Sound.of_interrupted (sound : monitor.Sound) {thread : ThreadId} {depth : Nat}
    (saved : savedDepth? monitor.signalQueue thread = some depth) :
    (MonitorTable.interrupted monitor thread depth).Sound := by
  have order := MonitorTable.rearranged_interrupted saved
  constructor
  · exact sound.held
  · exact order.distinct sound.distinct
  · intro owner owns queued
    exact sound.ownerApart owner owns (order.queued queued)
  · exact order.saved sound.saved
  · exact Nat.min_le_right _ _
  · intro unowned
    have none := sound.settled unowned
    have fewer : (MonitorTable.interrupted monitor thread depth).pendingSignals ≤
        monitor.pendingSignals := Nat.min_le_left _ _
    rw [none] at fewer
    exact Nat.le_zero.1 fewer

/-- A thread of the entry queue becomes the owner. -/
private theorem Sound.of_granted (sound : monitor.Sound) {thread : ThreadId} {depth : Nat}
    (saved : savedDepth? monitor.entryQueue thread = some depth) :
    (MonitorTable.granted monitor thread depth).Sound := by
  have order := (MonitorTable.rearranged_granted saved).symm
  have distinct := order.distinct sound.distinct
  have positive := order.saved sound.saved
  constructor
  · exact ⟨fun _ => ⟨thread, rfl⟩, fun _ => positive _ List.mem_cons_self⟩
  · exact distinct.of_cons
  · intro owner owns queued
    have same : thread = owner := Option.some.inj owns
    rw [← same] at queued
    obtain ⟨waiter, member, equal⟩ := queued
    exact (List.pairwise_cons.1 distinct).1 waiter member equal.symm
  · intro waiter member
    exact positive waiter (List.mem_cons_of_mem _ member)
  · change monitor.pendingSignals ≤ monitor.signalQueue.length
    exact sound.pending
  · intro impossible
    cases impossible

end Monitor

/-- What holds of the monitors and the queued threads taken together. -/
structure MonitorTable.Sound (table : MonitorTable) : Prop where
  monitors : ∀ lock, (table.monitorOf lock).Sound
  enters : Tracks table.entering fun lock => (table.monitorOf lock).entryQueue
  awaits : Tracks table.waiting fun lock => (table.monitorOf lock).signalQueue
  apart : ∀ thread, table.entering? thread = none ∨ table.waitingFor? thread = none
  used : ∀ lock monitor, table.monitor? lock = some monitor → monitor.isIdle = false

namespace MonitorTable

variable {table : MonitorTable}

theorem Sound.of_empty : empty.Sound where
  monitors := fun _ => Monitor.Sound.of_free
  enters := by
    intro thread lock
    constructor
    · intro impossible
      cases impossible
    · rintro ⟨waiter, member, -⟩
      cases member
  awaits := by
    intro thread lock
    constructor
    · intro impossible
      cases impossible
    · rintro ⟨waiter, member, -⟩
      cases member
  apart := fun _ => Or.inl rfl
  used := by
    intro lock monitor impossible
    cases impossible

theorem Sound.entering_iff (sound : table.Sound) (thread : ThreadId) (lock : LockId) :
    table.entering? thread = some lock ↔ Queued (table.monitorOf lock).entryQueue thread :=
  sound.enters thread lock

theorem Sound.waitingFor_iff (sound : table.Sound) (thread : ThreadId) (lock : LockId) :
    table.waitingFor? thread = some lock ↔ Queued (table.monitorOf lock).signalQueue thread :=
  sound.awaits thread lock

theorem Sound.not_queued_of_not_entering (sound : table.Sound) {thread : ThreadId}
    (free : table.entering? thread = none) (lock : LockId) :
    ¬ Queued (table.monitorOf lock).entryQueue thread := by
  intro queued
  rw [(sound.entering_iff thread lock).2 queued] at free
  cases free

theorem Sound.not_queued_of_not_waiting (sound : table.Sound) {thread : ThreadId}
    (free : table.waitingFor? thread = none) (lock : LockId) :
    ¬ Queued (table.monitorOf lock).signalQueue thread := by
  intro queued
  rw [(sound.waitingFor_iff thread lock).2 queued] at free
  cases free

theorem monitorOf_eq_of_monitor?_eq {first second : MonitorTable} {lock : LockId}
    (same : first.monitor? lock = second.monitor? lock) :
    first.monitorOf lock = second.monitorOf lock := by
  rw [monitorOf, monitorOf, same]

/-- An operation that concerns one lock keeps a table sound if it keeps the monitor of that
lock sound and in step with what is recorded of the threads. -/
theorem Sound.of_change (sound : table.Sound) {after : MonitorTable} (lock : LockId)
    (elsewhere : ∀ other, other ≠ lock → after.monitor? other = table.monitor? other)
    (here : (after.monitorOf lock).Sound)
    (entersHere : ∀ thread, after.entering? thread = some lock ↔
      Queued (after.monitorOf lock).entryQueue thread)
    (entersElsewhere : ∀ thread other, other ≠ lock →
      (after.entering? thread = some other ↔ table.entering? thread = some other))
    (awaitsHere : ∀ thread, after.waitingFor? thread = some lock ↔
      Queued (after.monitorOf lock).signalQueue thread)
    (awaitsElsewhere : ∀ thread other, other ≠ lock →
      (after.waitingFor? thread = some other ↔ table.waitingFor? thread = some other))
    (apart : ∀ thread, after.entering? thread = none ∨ after.waitingFor? thread = none)
    (used : ∀ monitor, after.monitor? lock = some monitor → monitor.isIdle = false) :
    after.Sound := by
  have unchanged : ∀ other, other ≠ lock → after.monitorOf other = table.monitorOf other :=
    fun other different => monitorOf_eq_of_monitor?_eq (elsewhere other different)
  constructor
  · intro other
    by_cases same : other = lock
    · rw [same]
      exact here
    · rw [unchanged other same]
      exact sound.monitors other
  · intro thread other
    change after.entering? thread = some other ↔ Queued (after.monitorOf other).entryQueue thread
    by_cases same : other = lock
    · rw [same]
      exact entersHere thread
    · rw [unchanged other same, entersElsewhere thread other same]
      exact sound.entering_iff thread other
  · intro thread other
    change after.waitingFor? thread = some other ↔ Queued (after.monitorOf other).signalQueue thread
    by_cases same : other = lock
    · rw [same]
      exact awaitsHere thread
    · rw [unchanged other same, awaitsElsewhere thread other same]
      exact sound.waitingFor_iff thread other
  · exact apart
  · intro other monitor found
    by_cases same : other = lock
    · rw [same] at found
      exact used monitor found
    · rw [elsewhere other same] at found
      exact sound.used other monitor found

/-! ## Operations on a lock that stays held -/

private theorem Monitor.isIdle_of_owner {monitor : Monitor} {owner : ThreadId}
    (held : monitor.owner = some owner) : monitor.isIdle = false := by
  simp [Monitor.isIdle, held]

private theorem monitor?_record (table : MonitorTable) (lock other : LockId) (monitor : Monitor) :
    (table.record lock monitor).monitor? other =
      if other = lock then some monitor else table.monitor? other :=
  monitor?_insert table.monitors table.entering table.waiting lock other monitor

theorem monitorOf_record (table : MonitorTable) (lock other : LockId) (monitor : Monitor) :
    (table.record lock monitor).monitorOf other =
      if other = lock then monitor else table.monitorOf other :=
  monitorOf_insert table table.entering table.waiting lock other monitor

private theorem Sound.record (sound : table.Sound) {lock : LockId} {monitor : Monitor}
    (entry : monitor.entryQueue = (table.monitorOf lock).entryQueue)
    (signal : monitor.signalQueue = (table.monitorOf lock).signalQueue)
    (held : 0 < monitor.depth ∧ ∃ owner, monitor.owner = some owner ∧
      ¬ Queued (table.monitorOf lock).entryQueue owner ∧
      ¬ Queued (table.monitorOf lock).signalQueue owner)
    (pending : monitor.pendingSignals ≤ (table.monitorOf lock).signalQueue.length) :
    (table.record lock monitor).Sound := by
  have now : (table.record lock monitor).monitorOf lock = monitor := by
    rw [monitorOf_record, if_pos rfl]
  refine sound.of_change lock ?_ ?_ ?_ (fun _ _ _ => Iff.rfl) ?_ (fun _ _ _ => Iff.rfl)
    sound.apart ?_
  · intro other different
    rw [monitor?_record, if_neg different]
  · rw [now]
    exact (sound.monitors lock).of_same_queues entry signal held pending
  · intro thread
    rw [now, entry]
    exact sound.entering_iff thread lock
  · intro thread
    rw [now, signal]
    exact sound.waitingFor_iff thread lock
  · intro other found
    rw [monitor?_record, if_pos rfl] at found
    obtain ⟨-, owner, owned, -⟩ := held
    rw [← Option.some.inj found]
    exact Monitor.isIdle_of_owner owned

/-- The owner of a lock, with what soundness says of it. -/
theorem Sound.owner_apart (sound : table.Sound) {thread : ThreadId} {lock : LockId}
    (owns : table.Owns thread lock) :
    0 < (table.monitorOf lock).depth ∧ ∃ owner, (table.monitorOf lock).owner = some owner ∧
      ¬ Queued (table.monitorOf lock).entryQueue owner ∧
      ¬ Queued (table.monitorOf lock).signalQueue owner := by
  obtain ⟨owner, held, -⟩ := owns
  have positive := (sound.monitors lock).held.2 ⟨owner, held⟩
  exact ⟨positive, owner, held, (sound.monitors lock).owner_not_queued ⟨owner, held, rfl⟩⟩

private theorem Sound.apart_insert_entering (sound : table.Sound) {thread : ThreadId}
    (lock : LockId) (notWaiting : table.waitingFor? thread = none) (other : ThreadId) :
    (table.entering.insert thread lock).get? other = none ∨ table.waitingFor? other = none := by
  rw [Table.get?_insert]
  simp only [ThreadId.compare_eq_iff]
  by_cases here : other.lineage = thread.lineage
  · exact Or.inr ((table.waitingFor?_congr here).trans notWaiting)
  · rw [if_neg here]
    exact sound.apart other

private theorem Sound.apart_insert_waiting (sound : table.Sound) {thread : ThreadId} (lock : LockId)
    (notEntering : table.entering? thread = none) (other : ThreadId) :
    table.entering? other = none ∨ (table.waiting.insert thread lock).get? other = none := by
  rw [Table.get?_insert]
  simp only [ThreadId.compare_eq_iff]
  by_cases here : other.lineage = thread.lineage
  · exact Or.inl ((table.entering?_congr here).trans notEntering)
  · rw [if_neg here]
    exact sound.apart other

theorem Sound.enter (sound : table.Sound) {thread : ThreadId} (lock : LockId)
    (notEntering : table.entering? thread = none) (notWaiting : table.waitingFor? thread = none) :
    (table.enter thread lock).2.Sound := by
  have notEntry := sound.not_queued_of_not_entering notEntering lock
  have notSignal := sound.not_queued_of_not_waiting notWaiting lock
  have monitorSound := sound.monitors lock
  cases held : (table.monitorOf lock).owner with
  | none =>
      rw [enter_free held]
      exact sound.record rfl rfl ⟨Nat.one_pos, thread, rfl, notEntry, notSignal⟩
        monitorSound.pending
  | some owner =>
      by_cases same : owner.lineage = thread.lineage
      · rw [enter_again held same]
        obtain ⟨-, apart⟩ := sound.owner_apart ⟨owner, held, same⟩
        exact sound.record rfl rfl ⟨Nat.succ_pos _, apart⟩ monitorSound.pending
      · rw [enter_held held same]
        obtain ⟨entersHere, entersElsewhere⟩ := sound.enters.insert notEntering lock 1
        have now := monitorOf_insert table (table.entering.insert thread lock) table.waiting lock
          lock { table.monitorOf lock with
            entryQueue := (table.monitorOf lock).entryQueue ++ [⟨thread, 1⟩] }
        rw [if_pos rfl] at now
        refine sound.of_change lock ?_ ?_ ?_ entersElsewhere ?_ (fun _ _ _ => Iff.rfl) ?_ ?_
        · intro other different
          rw [monitor?_insert, if_neg different]
          rfl
        · rw [now]
          exact monitorSound.of_joined held same notEntry notSignal
        · intro other
          rw [now]
          exact entersHere other
        · intro other
          rw [now]
          exact sound.waitingFor_iff other lock
        · exact sound.apart_insert_entering lock notWaiting
        · intro monitor found
          rw [monitor?_insert, if_pos rfl] at found
          rw [← Option.some.inj found]
          exact Monitor.isIdle_of_owner held

/-! ## Letting a lock go -/

/-- Letting go of a lock keeps a table sound.  `before` is the table with the places that the
thread that lets go took in the queues of the lock. -/
theorem Sound.release (sound : table.Sound) {before : MonitorTable} {lock : LockId}
    {monitor : Monitor} (elsewhere : before.monitors = table.monitors)
    (distinct : Distinct (monitor.entryQueue ++ monitor.signalQueue))
    (saved : ∀ waiter ∈ monitor.entryQueue ++ monitor.signalQueue, 0 < waiter.depth)
    (entersHere : ∀ thread,
      before.entering? thread = some lock ↔ Queued monitor.entryQueue thread)
    (entersElsewhere : ∀ thread other, other ≠ lock →
      (before.entering? thread = some other ↔ table.entering? thread = some other))
    (awaitsHere : ∀ thread,
      before.waitingFor? thread = some lock ↔ Queued monitor.signalQueue thread)
    (awaitsElsewhere : ∀ thread other, other ≠ lock →
      (before.waitingFor? thread = some other ↔ table.waitingFor? thread = some other))
    (apart : ∀ thread, before.entering? thread = none ∨ before.waitingFor? thread = none) :
    (before.release lock monitor).2.Sound := by
  have now : (before.release lock monitor).2.monitorOf lock = monitor.released := by
    rw [monitorOf_release, if_pos rfl]
  have split : monitor.signalQueue = monitor.signalled ++ monitor.released.signalQueue :=
    (List.take_append_drop monitor.pendingSignals monitor.signalQueue).symm
  have signalDistinct := (distinct_append.1 distinct).2.1
  rw [split] at signalDistinct
  have notLeft := (distinct_append.1 signalDistinct).2.2
  have awaited : ∀ thread, Queued monitor.signalled thread →
      before.waitingFor? thread = some lock := by
    intro thread signalled
    rw [awaitsHere, split, queued_append]
    exact Or.inl signalled
  refine sound.of_change lock ?_ ?_ ?_ ?_ ?_ ?_ ?_ ?_
  · intro other different
    rw [monitor?_release, if_neg different, monitor?, elsewhere]
    rfl
  · rw [now]
    exact Monitor.Sound.of_released distinct saved
  · intro thread
    rw [now, entering?_release]
    change _ ↔ Queued (monitor.entryQueue ++ monitor.signalled) thread
    rw [queued_append]
    by_cases signalled : Queued monitor.signalled thread
    · simp [signalled]
    · rw [if_neg signalled, or_iff_left signalled]
      exact entersHere thread
  · intro thread other different
    rw [entering?_release]
    by_cases signalled : Queued monitor.signalled thread
    · rw [if_pos signalled, ← entersElsewhere thread other different]
      have notEntering : before.entering? thread = none := by
        rcases apart thread with none | none
        · exact none
        · rw [awaited thread signalled] at none
          cases none
      rw [notEntering]
      simp [Ne.symm different]
    · rw [if_neg signalled]
      exact entersElsewhere thread other different
  · intro thread
    rw [now, waitingFor?_release]
    by_cases signalled : Queued monitor.signalled thread
    · have absent := notLeft thread signalled
      simp [signalled, absent]
    · rw [if_neg signalled, awaitsHere, split, queued_append, or_iff_right signalled]
  · intro thread other different
    rw [waitingFor?_release]
    by_cases signalled : Queued monitor.signalled thread
    · rw [if_pos signalled, ← awaitsElsewhere thread other different, awaited thread signalled]
      simp [Ne.symm different]
    · rw [if_neg signalled]
      exact awaitsElsewhere thread other different
  · intro thread
    rw [entering?_release, waitingFor?_release]
    by_cases signalled : Queued monitor.signalled thread
    · exact Or.inr (if_pos signalled)
    · rw [if_neg signalled, if_neg signalled]
      exact apart thread
  · intro other found
    rw [monitor?_release, if_pos rfl] at found
    cases idle : monitor.released.isIdle with
    | true =>
        rw [if_pos idle] at found
        cases found
    | false =>
        rw [if_neg (by rw [idle]; exact Bool.false_ne_true)] at found
        rw [← Option.some.inj found]
        exact idle

theorem Sound.leave (sound : table.Sound) {thread : ThreadId} {lock : LockId}
    {transition : Transition} {after : MonitorTable}
    (left : table.leave thread lock = .ok (transition, after)) : after.Sound := by
  by_cases owns : table.Owns thread lock
  · have monitorSound := sound.monitors lock
    by_cases inner : 1 < (table.monitorOf lock).depth
    · rw [leave_inner owns inner] at left
      cases left
      obtain ⟨-, apart⟩ := sound.owner_apart owns
      exact sound.record rfl rfl ⟨by dsimp only; omega, apart⟩ monitorSound.pending
    · rw [leave_last owns (by omega)] at left
      cases left
      exact sound.release rfl monitorSound.distinct monitorSound.saved
        (fun other => sound.entering_iff other lock) (fun _ _ _ => Iff.rfl)
        (fun other => sound.waitingFor_iff other lock) (fun _ _ _ => Iff.rfl) sound.apart
  · rw [leave_of_not_owns owns] at left
    cases left

theorem Sound.wait (sound : table.Sound) {thread : ThreadId} {lock : LockId} {timed : Bool}
    {transition : Transition} {after : MonitorTable}
    (notEntering : table.entering? thread = none) (notWaiting : table.waitingFor? thread = none)
    (waited : table.wait thread lock timed = .ok (transition, after)) : after.Sound := by
  by_cases owns : table.Owns thread lock
  · have monitorSound := sound.monitors lock
    have positive := (sound.owner_apart owns).1
    have notQueued : ¬ Queued ((table.monitorOf lock).entryQueue ++
        (table.monitorOf lock).signalQueue) thread := by
      rw [queued_append]
      exact fun queued => queued.elim (sound.not_queued_of_not_entering notEntering lock)
        (sound.not_queued_of_not_waiting notWaiting lock)
    have savedAll : ∀ waiter ∈ (⟨thread, (table.monitorOf lock).depth⟩ : Waiter) ::
        ((table.monitorOf lock).entryQueue ++ (table.monitorOf lock).signalQueue),
        0 < waiter.depth := by
      intro waiter member
      rcases List.mem_cons.1 member with here | elsewhere
      · rw [here]
        exact positive
      · exact monitorSound.saved waiter elsewhere
    cases timed with
    | true =>
        rw [wait_timed owns] at waited
        cases waited
        obtain ⟨entersHere, entersElsewhere⟩ :=
          sound.enters.insert notEntering lock (table.monitorOf lock).depth
        have order := rearranged_requeued (table.monitorOf lock) thread
        exact sound.release rfl (order.distinct (monitorSound.distinct.cons notQueued))
          (order.saved savedAll) entersHere entersElsewhere
          (fun other => sound.waitingFor_iff other lock) (fun _ _ _ => Iff.rfl)
          (sound.apart_insert_entering lock notWaiting)
    | false =>
        rw [wait_untimed owns] at waited
        cases waited
        obtain ⟨awaitsHere, awaitsElsewhere⟩ :=
          sound.awaits.insert notWaiting lock (table.monitorOf lock).depth
        have order := rearranged_awaiting (table.monitorOf lock) thread
        exact sound.release rfl (order.distinct (monitorSound.distinct.cons notQueued))
          (order.saved savedAll) (fun other => sound.entering_iff other lock)
          (fun _ _ _ => Iff.rfl) awaitsHere awaitsElsewhere
          (sound.apart_insert_waiting lock notEntering)
  · rw [wait_of_not_owns timed owns] at waited
    cases waited

theorem Sound.notify (sound : table.Sound) {thread : ThreadId} {lock : LockId}
    {after : MonitorTable} (notified : table.notify thread lock = .ok after) : after.Sound := by
  by_cases owns : table.Owns thread lock
  · rw [notify_of_owns owns] at notified
    cases notified
    exact sound.record rfl rfl (sound.owner_apart owns) (Nat.min_le_right _ _)
  · rw [notify_of_not_owns owns] at notified
    cases notified

theorem Sound.notifyAll (sound : table.Sound) {thread : ThreadId} {lock : LockId}
    {after : MonitorTable} (notified : table.notifyAll thread lock = .ok after) :
    after.Sound := by
  by_cases owns : table.Owns thread lock
  · rw [notifyAll_of_owns owns] at notified
    cases notified
    exact sound.record rfl rfl (sound.owner_apart owns) (Nat.le_refl _)
  · rw [notifyAll_of_not_owns owns] at notified
    cases notified

theorem Sound.interrupt (sound : table.Sound) (thread : ThreadId) :
    (table.interrupt thread).2.Sound := by
  cases waits : table.waitingFor? thread with
  | none =>
      rw [interrupt_of_not_waiting waits]
      exact sound
  | some lock =>
      have queued := (sound.waitingFor_iff thread lock).1 waits
      obtain ⟨depth, saved, effect⟩ := interrupt_of_waiting waits queued
      rw [effect]
      have monitorSound := sound.monitors lock
      have notEntering : table.entering? thread = none := by
        rcases sound.apart thread with none | none
        · exact none
        · rw [waits] at none
          cases none
      obtain ⟨entersHere, entersElsewhere⟩ := sound.enters.insert notEntering lock depth
      obtain ⟨awaitsHere, awaitsElsewhere⟩ := sound.awaits.erase waits monitorSound.signalDistinct
      have now := monitorOf_insert table (table.entering.insert thread lock)
        (table.waiting.erase thread) lock lock (interrupted (table.monitorOf lock) thread depth)
      rw [if_pos rfl] at now
      refine sound.of_change lock ?_ ?_ ?_ entersElsewhere ?_ awaitsElsewhere ?_ ?_
      · intro other different
        rw [monitor?_insert, if_neg different]
        rfl
      · rw [now]
        exact monitorSound.of_interrupted saved
      · intro other
        rw [now]
        exact entersHere other
      · intro other
        rw [now]
        exact awaitsHere other
      · intro other
        simp only [entering?_mk, waitingFor?_mk, Table.get?_insert, Table.get?_erase,
          ThreadId.compare_eq_iff]
        by_cases here : other.lineage = thread.lineage
        · exact Or.inr (if_pos here)
        · rw [if_neg here, if_neg here]
          exact sound.apart other
      · intro monitor found
        rw [monitor?_insert, if_pos rfl] at found
        rw [← Option.some.inj found]
        simp [Monitor.isIdle, interrupted]

theorem Sound.resume (sound : table.Sound) (thread : ThreadId) :
    (table.resume thread).2.Sound := by
  cases enters : table.entering? thread with
  | none =>
      rw [resume_of_not_entering enters]
      exact sound
  | some lock =>
      have queued := (sound.entering_iff thread lock).1 enters
      have monitorSound := sound.monitors lock
      cases owner : (table.monitorOf lock).owner with
      | some holder =>
          rw [resume_held enters queued (Monitor.isHeld_iff.2 ⟨holder, owner⟩)]
          exact sound
      | none =>
          obtain ⟨depth, saved, effect⟩ := resume_free enters queued owner
          rw [effect]
          obtain ⟨entersHere, entersElsewhere⟩ :=
            sound.enters.erase enters monitorSound.entryDistinct
          have now := monitorOf_insert table (table.entering.erase thread) table.waiting lock lock
            (granted (table.monitorOf lock) thread depth)
          rw [if_pos rfl] at now
          refine sound.of_change lock ?_ ?_ ?_ entersElsewhere ?_ (fun _ _ _ => Iff.rfl) ?_ ?_
          · intro other different
            rw [monitor?_insert, if_neg different]
            rfl
          · rw [now]
            exact monitorSound.of_granted saved
          · intro other
            rw [now]
            exact entersHere other
          · intro other
            rw [now]
            exact sound.waitingFor_iff other lock
          · intro other
            simp only [entering?_mk, Table.get?_erase, ThreadId.compare_eq_iff]
            by_cases here : other.lineage = thread.lineage
            · exact Or.inl (if_pos here)
            · rw [if_neg here]
              exact sound.apart other
          · intro monitor found
            rw [monitor?_insert, if_pos rfl] at found
            rw [← Option.some.inj found]
            exact Monitor.isIdle_of_owner rfl

end MonitorTable

end ScheduleSearch
