import ScheduleSearch.Monitor.MonitorTable
import ScheduleSearch.Proofs.Monitor.Queues

/-!
# What the operations on monitors do

A table of monitors is seen through three functions: the monitor of each lock, which is a free
one where none is recorded, and the lock each thread wants to enter or awaits a signal of.
There is one lemma for each operation; later modules do not unfold the operations.
-/

namespace ScheduleSearch

theorem Monitor.isOwnedBy_iff {monitor : Monitor} {thread : ThreadId} :
    monitor.isOwnedBy thread = true ↔
      ∃ owner, monitor.owner = some owner ∧ owner.lineage = thread.lineage := by
  unfold isOwnedBy
  cases monitor.owner with
  | none => simp
  | some owner => simp [ThreadId.same_iff_lineage]

theorem Monitor.isHeld_iff {monitor : Monitor} :
    monitor.isHeld = true ↔ ∃ owner, monitor.owner = some owner :=
  Option.isSome_iff_exists

private theorem Monitor.released_eq_free {monitor : Monitor}
    (idle : monitor.released.isIdle = true) :
    monitor.released = free := by
  simp only [isIdle, Bool.and_eq_true, List.isEmpty_iff] at idle
  obtain ⟨⟨⟨-, entry⟩, signal⟩, -⟩ := idle
  have shape : monitor.released =
      ⟨none, 0, monitor.released.entryQueue, monitor.released.signalQueue, 0⟩ := rfl
  rw [shape, entry, signal]
  rfl

namespace MonitorTable

variable {table : MonitorTable}

/-- The monitor of a lock, a free one where none is recorded. -/
def monitorOf (table : MonitorTable) (lock : LockId) : Monitor :=
  (table.monitor? lock).getD .free

theorem entering?_congr (table : MonitorTable) {left right : ThreadId}
    (same : left.lineage = right.lineage) : table.entering? left = table.entering? right :=
  Table.get?_congr table.entering (ThreadId.compare_eq_iff.2 same)

theorem waitingFor?_congr (table : MonitorTable) {left right : ThreadId}
    (same : left.lineage = right.lineage) : table.waitingFor? left = table.waitingFor? right :=
  Table.get?_congr table.waiting (ThreadId.compare_eq_iff.2 same)

theorem owner?_eq (table : MonitorTable) (lock : LockId) :
    table.owner? lock = (table.monitorOf lock).owner := by
  unfold owner? monitorOf
  cases table.monitor? lock <;> rfl

theorem depth_eq (table : MonitorTable) (lock : LockId) :
    table.depth lock = (table.monitorOf lock).depth := by
  unfold depth monitorOf
  cases table.monitor? lock <;> rfl

theorem monitor?_insert (monitors : Table LockId Monitor) (entering waiting : Table ThreadId LockId)
    (lock other : LockId) (monitor : Monitor) :
    (⟨monitors.insert lock monitor, entering, waiting⟩ : MonitorTable).monitor? other =
      if other = lock then some monitor else monitors.get? other := by
  simp only [monitor?, Table.get?_insert, LockId.compare_eq_iff]

theorem monitorOf_insert (table : MonitorTable) (entering waiting : Table ThreadId LockId)
    (lock other : LockId) (monitor : Monitor) :
    (⟨table.monitors.insert lock monitor, entering, waiting⟩ : MonitorTable).monitorOf other =
      if other = lock then monitor else table.monitorOf other := by
  rw [monitorOf, monitor?_insert]
  split <;> rfl

theorem entering?_mk (monitors : Table LockId Monitor) (entering waiting : Table ThreadId LockId)
    (thread : ThreadId) :
    (⟨monitors, entering, waiting⟩ : MonitorTable).entering? thread = entering.get? thread := rfl

theorem waitingFor?_mk (monitors : Table LockId Monitor)
    (entering waiting : Table ThreadId LockId) (thread : ThreadId) :
    (⟨monitors, entering, waiting⟩ : MonitorTable).waitingFor? thread = waiting.get? thread := rfl

theorem enter_free {thread : ThreadId} {lock : LockId}
    (free : (table.monitorOf lock).owner = none) :
    table.enter thread lock =
      (.none, table.record lock
        { table.monitorOf lock with owner := some thread, depth := 1 }) := by
  have unheld : (table.monitorOf lock).isHeld = false := by rw [Monitor.isHeld, free]; rfl
  unfold enter
  rw [← monitorOf]
  dsimp only
  rw [unheld]
  rfl

theorem enter_again {thread owner : ThreadId} {lock : LockId}
    (held : (table.monitorOf lock).owner = some owner) (same : owner.lineage = thread.lineage) :
    table.enter thread lock =
      (.none, table.record lock
        { table.monitorOf lock with depth := (table.monitorOf lock).depth + 1 }) := by
  have isHeld : (table.monitorOf lock).isHeld = true := Monitor.isHeld_iff.2 ⟨owner, held⟩
  have owned : (table.monitorOf lock).isOwnedBy thread = true :=
    Monitor.isOwnedBy_iff.2 ⟨owner, held, same⟩
  unfold enter
  rw [← monitorOf]
  dsimp only
  rw [isHeld, owned]
  rfl

theorem enter_held {thread owner : ThreadId} {lock : LockId}
    (held : (table.monitorOf lock).owner = some owner)
    (different : owner.lineage ≠ thread.lineage) :
    table.enter thread lock =
      (.block thread,
        { monitors := table.monitors.insert lock
            { table.monitorOf lock with
              entryQueue := (table.monitorOf lock).entryQueue ++ [⟨thread, 1⟩] }
          entering := table.entering.insert thread lock
          waiting := table.waiting }) := by
  have isHeld : (table.monitorOf lock).isHeld = true := Monitor.isHeld_iff.2 ⟨owner, held⟩
  have foreign : (table.monitorOf lock).isOwnedBy thread = false := by
    rw [← Bool.not_eq_true, Monitor.isOwnedBy_iff]
    rintro ⟨other, found, same⟩
    rw [held] at found
    cases found
    exact different same
  unfold enter
  rw [← monitorOf]
  dsimp only
  rw [isHeld, foreign]
  rfl

/-- Whether the thread holds the lock. -/
def Owns (table : MonitorTable) (thread : ThreadId) (lock : LockId) : Prop :=
  ∃ owner, (table.monitorOf lock).owner = some owner ∧ owner.lineage = thread.lineage

theorem owned_of_owns {thread : ThreadId} {lock : LockId} (owns : table.Owns thread lock) :
    table.owned thread lock = .ok (table.monitorOf lock) := by
  have owned := Monitor.isOwnedBy_iff.2 owns
  unfold MonitorTable.owned
  unfold monitorOf at owned ⊢
  cases found : table.monitor? lock with
  | none =>
      rw [found] at owned
      cases owned
  | some monitor =>
      rw [found] at owned
      simp only [Option.getD_some] at owned ⊢
      rw [if_pos owned]

theorem owned_of_not_owns {thread : ThreadId} {lock : LockId}
    (foreign : ¬ table.Owns thread lock) :
    table.owned thread lock = .error (.illegalMonitorState thread lock) := by
  unfold MonitorTable.owned
  cases found : table.monitor? lock with
  | none => rfl
  | some monitor =>
      have same : table.monitorOf lock = monitor := by rw [monitorOf, found]; rfl
      refine if_neg fun owned => foreign ?_
      rw [Owns, same]
      exact Monitor.isOwnedBy_iff.1 owned

/-! ## Releasing -/

theorem monitor?_release (table : MonitorTable) (lock other : LockId) (monitor : Monitor) :
    (table.release lock monitor).2.monitor? other =
      if other = lock then if monitor.released.isIdle then none else some monitor.released
      else table.monitor? other := by
  unfold release monitor?
  dsimp only
  split
  next idle =>
    rw [Table.get?_erase]
    simp only [LockId.compare_eq_iff]
  next =>
    rw [Table.get?_insert]
    simp only [LockId.compare_eq_iff]

theorem monitorOf_release (table : MonitorTable) (lock other : LockId) (monitor : Monitor) :
    (table.release lock monitor).2.monitorOf other =
      if other = lock then monitor.released else table.monitorOf other := by
  rw [monitorOf, monitor?_release]
  by_cases here : other = lock
  · rw [if_pos here, if_pos here]
    by_cases idle : monitor.released.isIdle = true
    · rw [if_pos idle, Monitor.released_eq_free idle]
      rfl
    · rw [if_neg idle]
      rfl
  · rw [if_neg here, if_neg here]
    rfl

private theorem get?_foldl_insert (lock : LockId) (thread : ThreadId) (woken : List Waiter) :
    ∀ entering : Table ThreadId LockId,
      (woken.foldl (fun entering waiter => entering.insert waiter.thread lock) entering).get?
          thread =
        if Queued woken thread then some lock else entering.get? thread := by
  induction woken with
  | nil =>
      intro entering
      simp
  | cons head rest inductionHypothesis =>
      intro entering
      rw [List.foldl_cons, inductionHypothesis, Table.get?_insert]
      simp only [ThreadId.compare_eq_iff]
      by_cases later : Queued rest thread
      · rw [if_pos later, if_pos (queued_cons.2 (Or.inr later))]
      · by_cases here : thread.lineage = head.thread.lineage
        · rw [if_neg later, if_pos here, if_pos (queued_cons.2 (Or.inl here.symm))]
        · have absent : ¬ Queued (head :: rest) thread := fun queued =>
            (queued_cons.1 queued).elim (fun same => here same.symm) later
          rw [if_neg later, if_neg here, if_neg absent]

private theorem get?_foldl_erase (thread : ThreadId) (woken : List Waiter) :
    ∀ waiting : Table ThreadId LockId,
      (woken.foldl (fun waiting waiter => waiting.erase waiter.thread) waiting).get? thread =
        if Queued woken thread then none else waiting.get? thread := by
  induction woken with
  | nil =>
      intro waiting
      simp
  | cons head rest inductionHypothesis =>
      intro waiting
      rw [List.foldl_cons, inductionHypothesis, Table.get?_erase]
      simp only [ThreadId.compare_eq_iff]
      by_cases later : Queued rest thread
      · rw [if_pos later, if_pos (queued_cons.2 (Or.inr later))]
      · by_cases here : thread.lineage = head.thread.lineage
        · rw [if_neg later, if_pos here, if_pos (queued_cons.2 (Or.inl here.symm))]
        · have absent : ¬ Queued (head :: rest) thread := fun queued =>
            (queued_cons.1 queued).elim (fun same => here same.symm) later
          rw [if_neg later, if_neg here, if_neg absent]

theorem entering?_release (table : MonitorTable) (lock : LockId) (monitor : Monitor)
    (thread : ThreadId) :
    (table.release lock monitor).2.entering? thread =
      if Queued monitor.signalled thread then some lock else table.entering? thread :=
  get?_foldl_insert lock thread monitor.signalled table.entering

theorem waitingFor?_release (table : MonitorTable) (lock : LockId) (monitor : Monitor)
    (thread : ThreadId) :
    (table.release lock monitor).2.waitingFor? thread =
      if Queued monitor.signalled thread then none else table.waitingFor? thread :=
  get?_foldl_erase thread monitor.signalled table.waiting

theorem leave_of_not_owns {thread : ThreadId} {lock : LockId}
    (foreign : ¬ table.Owns thread lock) :
    table.leave thread lock = .error (.illegalMonitorState thread lock) := by
  rw [leave, owned_of_not_owns foreign]
  rfl

theorem leave_inner {thread : ThreadId} {lock : LockId} (owns : table.Owns thread lock)
    (inner : 1 < (table.monitorOf lock).depth) :
    table.leave thread lock =
      .ok (.none, table.record lock
        { table.monitorOf lock with depth := (table.monitorOf lock).depth - 1 }) := by
  have positive : (table.monitorOf lock).depth - 1 > 0 := by omega
  rw [leave, owned_of_owns owns]
  exact if_pos positive

theorem leave_last {thread : ThreadId} {lock : LockId} (owns : table.Owns thread lock)
    (last : (table.monitorOf lock).depth ≤ 1) :
    table.leave thread lock =
      .ok (.unblock ((table.monitorOf lock).released.entryQueue.map (·.thread)),
        (table.release lock
          { table.monitorOf lock with depth := (table.monitorOf lock).depth - 1 }).2) := by
  have zero : ¬ (table.monitorOf lock).depth - 1 > 0 := by omega
  rw [leave, owned_of_owns owns]
  exact if_neg zero

theorem wait_of_not_owns {thread : ThreadId} {lock : LockId} (timed : Bool)
    (foreign : ¬ table.Owns thread lock) :
    table.wait thread lock timed = .error (.illegalMonitorState thread lock) := by
  rw [wait, owned_of_not_owns foreign]
  rfl

/-- The monitor of a lock whose owner gives it up and queues to enter it again. -/
def requeued (monitor : Monitor) (thread : ThreadId) : Monitor :=
  { monitor with entryQueue := monitor.entryQueue ++ [⟨thread, monitor.depth⟩] }

/-- The monitor of a lock whose owner gives it up and waits for a signal. -/
def awaiting (monitor : Monitor) (thread : ThreadId) : Monitor :=
  { monitor with signalQueue := monitor.signalQueue ++ [⟨thread, monitor.depth⟩] }

theorem rearranged_requeued (monitor : Monitor) (thread : ThreadId) :
    Rearranged ((requeued monitor thread).entryQueue ++ (requeued monitor thread).signalQueue)
      (⟨thread, monitor.depth⟩ :: (monitor.entryQueue ++ monitor.signalQueue)) :=
  rearranged_cons _

theorem rearranged_awaiting (monitor : Monitor) (thread : ThreadId) :
    Rearranged ((awaiting monitor thread).entryQueue ++ (awaiting monitor thread).signalQueue)
      (⟨thread, monitor.depth⟩ :: (monitor.entryQueue ++ monitor.signalQueue)) := by
  change Rearranged (monitor.entryQueue ++ (monitor.signalQueue ++ [⟨thread, monitor.depth⟩])) _
  rw [← List.append_assoc]
  exact rearranged_of_perm (List.perm_append_singleton _ _)

theorem wait_timed {thread : ThreadId} {lock : LockId} (owns : table.Owns thread lock) :
    table.wait thread lock true =
      .ok (⟨[], (requeued (table.monitorOf lock) thread).released.entryQueue.map (·.thread)⟩,
        ({ table with entering := table.entering.insert thread lock }.release lock
          (requeued (table.monitorOf lock) thread)).2) := by
  rw [wait, owned_of_owns owns]
  rfl

theorem wait_untimed {thread : ThreadId} {lock : LockId} (owns : table.Owns thread lock) :
    table.wait thread lock false =
      .ok (⟨[thread], (awaiting (table.monitorOf lock) thread).released.entryQueue.map
          (·.thread)⟩,
        ({ table with waiting := table.waiting.insert thread lock }.release lock
          (awaiting (table.monitorOf lock) thread)).2) := by
  rw [wait, owned_of_owns owns]
  rfl

theorem notify_of_not_owns {thread : ThreadId} {lock : LockId}
    (foreign : ¬ table.Owns thread lock) :
    table.notify thread lock = .error (.illegalMonitorState thread lock) := by
  rw [notify, owned_of_not_owns foreign]
  rfl

theorem notify_of_owns {thread : ThreadId} {lock : LockId} (owns : table.Owns thread lock) :
    table.notify thread lock =
      .ok (table.record lock
        { table.monitorOf lock with
          pendingSignals := min ((table.monitorOf lock).pendingSignals + 1)
            (table.monitorOf lock).signalQueue.length }) := by
  rw [notify, owned_of_owns owns]
  rfl

theorem notifyAll_of_not_owns {thread : ThreadId} {lock : LockId}
    (foreign : ¬ table.Owns thread lock) :
    table.notifyAll thread lock = .error (.illegalMonitorState thread lock) := by
  rw [notifyAll, owned_of_not_owns foreign]
  rfl

theorem notifyAll_of_owns {thread : ThreadId} {lock : LockId} (owns : table.Owns thread lock) :
    table.notifyAll thread lock =
      .ok (table.record lock
        { table.monitorOf lock with
          pendingSignals := (table.monitorOf lock).signalQueue.length }) := by
  rw [notifyAll, owned_of_owns owns]
  rfl

theorem interrupt_of_not_waiting {thread : ThreadId}
    (notWaiting : table.waitingFor? thread = none) :
    table.interrupt thread = (.none, table) := by
  rw [interrupt, notWaiting]

/-- The monitor after a thread was moved from the signal queue to the entry queue. -/
def interrupted (monitor : Monitor) (thread : ThreadId) (depth : Nat) : Monitor :=
  { monitor with
    entryQueue := monitor.entryQueue ++ [⟨thread, depth⟩]
    signalQueue := withoutWaiter monitor.signalQueue thread
    pendingSignals :=
      min monitor.pendingSignals (withoutWaiter monitor.signalQueue thread).length }

theorem rearranged_interrupted {monitor : Monitor} {thread : ThreadId} {depth : Nat}
    (saved : savedDepth? monitor.signalQueue thread = some depth) :
    Rearranged ((interrupted monitor thread depth).entryQueue ++
        (interrupted monitor thread depth).signalQueue)
      (monitor.entryQueue ++ monitor.signalQueue) := by
  have taken := (rearranged_withoutWaiter saved).symm.append monitor.entryQueue []
  simp only [List.append_nil] at taken
  refine Rearranged.trans ?_ taken
  change Rearranged (monitor.entryQueue ++ [⟨thread, depth⟩] ++
    withoutWaiter monitor.signalQueue thread) _
  rw [List.append_assoc]
  exact List.Perm.refl _

theorem monitor?_of_queued {lock : LockId} {thread : ThreadId}
    (queued : Queued (table.monitorOf lock).entryQueue thread ∨
      Queued (table.monitorOf lock).signalQueue thread) :
    table.monitor? lock = some (table.monitorOf lock) := by
  unfold monitorOf at queued ⊢
  cases found : table.monitor? lock with
  | none =>
      rw [found] at queued
      rcases queued with ⟨waiter, member, -⟩ | ⟨waiter, member, -⟩ <;> cases member
  | some monitor => rfl

theorem interrupt_of_waiting {thread : ThreadId} {lock : LockId}
    (waits : table.waitingFor? thread = some lock)
    (queued : Queued (table.monitorOf lock).signalQueue thread) :
    ∃ depth, savedDepth? (table.monitorOf lock).signalQueue thread = some depth ∧
      table.interrupt thread =
        (if (table.monitorOf lock).isHeld then .none else .unblock [thread],
          { monitors := table.monitors.insert lock
              (interrupted (table.monitorOf lock) thread depth)
            entering := table.entering.insert thread lock
            waiting := table.waiting.erase thread }) := by
  obtain ⟨depth, saved⟩ := exists_savedDepth? queued
  have found := monitor?_of_queued (Or.inr queued)
  refine ⟨depth, saved, ?_⟩
  rw [interrupt, waits]
  dsimp only
  rw [show (⟨table.monitors, table.entering, table.waiting.erase thread⟩ :
    MonitorTable).monitor? lock = table.monitor? lock from rfl, found]
  dsimp only
  rw [saved]
  rfl

theorem resume_of_not_entering {thread : ThreadId} (idle : table.entering? thread = none) :
    table.resume thread = (.none, table) := by
  rw [resume, idle]

/-- The monitor after a thread of its entry queue became its owner. -/
def granted (monitor : Monitor) (thread : ThreadId) (depth : Nat) : Monitor :=
  { monitor with
    owner := some thread
    depth := depth
    entryQueue := withoutWaiter monitor.entryQueue thread }

theorem rearranged_granted {monitor : Monitor} {thread : ThreadId} {depth : Nat}
    (saved : savedDepth? monitor.entryQueue thread = some depth) :
    Rearranged (monitor.entryQueue ++ monitor.signalQueue)
      (⟨thread, depth⟩ :: ((granted monitor thread depth).entryQueue ++
        (granted monitor thread depth).signalQueue)) :=
  (rearranged_withoutWaiter saved).append [] monitor.signalQueue

theorem resume_held {thread : ThreadId} {lock : LockId}
    (enters : table.entering? thread = some lock)
    (queued : Queued (table.monitorOf lock).entryQueue thread)
    (held : (table.monitorOf lock).isHeld = true) :
    table.resume thread = (.block thread, table) := by
  have found := monitor?_of_queued (Or.inl queued)
  rw [resume, enters]
  dsimp only
  rw [found]
  exact if_pos held

theorem resume_free {thread : ThreadId} {lock : LockId}
    (enters : table.entering? thread = some lock)
    (queued : Queued (table.monitorOf lock).entryQueue thread)
    (free : (table.monitorOf lock).owner = none) :
    ∃ depth, savedDepth? (table.monitorOf lock).entryQueue thread = some depth ∧
      table.resume thread =
        (.none,
          { monitors := table.monitors.insert lock (granted (table.monitorOf lock) thread depth)
            entering := table.entering.erase thread
            waiting := table.waiting }) := by
  have found := monitor?_of_queued (Or.inl queued)
  have unheld : ¬ (table.monitorOf lock).isHeld = true := by
    rw [Monitor.isHeld, free]
    exact Bool.false_ne_true
  obtain ⟨depth, saved⟩ := exists_savedDepth? queued
  refine ⟨depth, saved, ?_⟩
  rw [resume, enters]
  dsimp only
  rw [found]
  dsimp only
  rw [if_neg unheld, saved]
  rfl

end MonitorTable

end ScheduleSearch
