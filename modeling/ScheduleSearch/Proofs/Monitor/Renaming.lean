import ScheduleSearch.Monitor.MonitorTable
import ScheduleSearch.Proofs.State.Renaming

/-!
# Monitors under other lock numbers

The numbers of locks are only names: an operation on a lock and the same operation on the lock
that replaces it ask the same of the run states, fail with the same faults up to the name of the
lock, and leave tables of monitors that differ in the names of the locks alone.  No two locks may
be replaced by one.
-/

namespace ScheduleSearch

def BlockReason.renamed (rename : LockId → LockId) : BlockReason → BlockReason
  | lock held => lock (rename held)
  | signal awaited => signal (rename awaited)
  | park => park
  | join joinee => join joinee

def StuckThread.renamed (rename : LockId → LockId) (stuck : StuckThread) : StuckThread :=
  { stuck with reason := stuck.reason.map (BlockReason.renamed rename) }

/-- The fault with every lock it names replaced. -/
def Fault.renamed (rename : LockId → LockId) : Fault → Fault
  | illegalMonitorState thread lock => illegalMonitorState thread (rename lock)
  | deadlock stuck => deadlock (stuck.map (StuckThread.renamed rename))
  | danglingThreads stuck => danglingThreads (stuck.map (StuckThread.renamed rename))
  | fault => fault

namespace MonitorTable

/-- The monitors with every lock replaced. -/
def renamed (rename : LockId → LockId) (table : MonitorTable) : MonitorTable where
  monitors := table.monitors.mapKeys rename
  entering := table.entering.mapValues rename
  waiting := table.waiting.mapValues rename

/-- What comes of an operation that may fail, with every lock replaced. -/
def renamedResult {α : Type} (view : α → α) (rename : LockId → LockId) (result : Except Fault α) :
    Except Fault α :=
  (result.map view).mapError (Fault.renamed rename)

variable {rename : LockId → LockId}

theorem entering?_renamed (table : MonitorTable) (thread : ThreadId) :
    (table.renamed rename).entering? thread = (table.entering? thread).map rename :=
  Table.get?_mapValues rename table.entering thread

private theorem waitingFor?_renamed (table : MonitorTable) (thread : ThreadId) :
    (table.renamed rename).waitingFor? thread = (table.waitingFor? thread).map rename :=
  Table.get?_mapValues rename table.waiting thread

variable (injective : Function.Injective rename) (table : MonitorTable)

include injective

private theorem monitor?_renamed (lock : LockId) :
    (table.renamed rename).monitor? (rename lock) = table.monitor? lock :=
  Table.get?_mapKeys injective table.monitors lock

private theorem owned_renamed (thread : ThreadId) (lock : LockId) :
    (table.renamed rename).owned thread (rename lock) =
      (table.owned thread lock).mapError (Fault.renamed rename) := by
  unfold owned
  rw [monitor?_renamed injective]
  cases table.monitor? lock with
  | none => rfl
  | some monitor =>
      dsimp only
      split
      · rfl
      · rfl

private theorem record_renamed (lock : LockId) (monitor : Monitor) :
    (table.renamed rename).record (rename lock) monitor =
      (table.record lock monitor).renamed rename := by
  simp only [record, renamed, Table.insert_mapKeys injective]

omit injective in
private theorem foldl_insert_mapValues (lock : LockId) (waiters : List Waiter) :
    ∀ entering : Table ThreadId LockId,
      waiters.foldl (fun entering waiter => entering.insert waiter.thread (rename lock))
          (entering.mapValues rename) =
        (waiters.foldl (fun entering waiter => entering.insert waiter.thread lock)
          entering).mapValues rename := by
  induction waiters with
  | nil => exact fun _ => rfl
  | cons waiter rest inductionHypothesis =>
      intro entering
      rw [List.foldl_cons, List.foldl_cons, Table.insert_mapValues, inductionHypothesis]

omit injective in
private theorem foldl_erase_mapValues (waiters : List Waiter) :
    ∀ waiting : Table ThreadId LockId,
      waiters.foldl (fun waiting waiter => waiting.erase waiter.thread)
          (waiting.mapValues rename) =
        (waiters.foldl (fun waiting waiter => waiting.erase waiter.thread)
          waiting).mapValues rename := by
  induction waiters with
  | nil => exact fun _ => rfl
  | cons waiter rest inductionHypothesis =>
      intro waiting
      rw [List.foldl_cons, List.foldl_cons, Table.erase_mapValues, inductionHypothesis]

private theorem release_renamed (lock : LockId) (monitor : Monitor) :
    (table.renamed rename).release (rename lock) monitor =
      Prod.map id (renamed rename) (table.release lock monitor) := by
  have freed : (if monitor.released.isIdle then
        (table.monitors.mapKeys rename).erase (rename lock)
      else (table.monitors.mapKeys rename).insert (rename lock) monitor.released) =
      (if monitor.released.isIdle then table.monitors.erase lock
      else table.monitors.insert lock monitor.released).mapKeys rename := by
    split
    · exact Table.erase_mapKeys injective table.monitors lock
    · exact Table.insert_mapKeys injective table.monitors lock monitor.released
  simp only [release, renamed, Prod.map, freed, foldl_insert_mapValues, foldl_erase_mapValues, id]

theorem enter_renamed (thread : ThreadId) (lock : LockId) :
    (table.renamed rename).enter thread (rename lock) =
      Prod.map id (renamed rename) (table.enter thread lock) := by
  unfold enter
  rw [monitor?_renamed injective]
  dsimp only
  split
  · rw [record_renamed injective]
    rfl
  · split
    · rw [record_renamed injective]
      rfl
    · simp only [renamed, Table.insert_mapKeys injective, Table.insert_mapValues]
      rfl

theorem leave_renamed (thread : ThreadId) (lock : LockId) :
    (table.renamed rename).leave thread (rename lock) =
      renamedResult (Prod.map id (renamed rename)) rename (table.leave thread lock) := by
  unfold leave
  rw [owned_renamed injective]
  cases table.owned thread lock with
  | error fault => rfl
  | ok monitor =>
      simp only [Except.mapError, bind, Except.bind]
      split
      · rw [record_renamed injective]
        rfl
      · rw [release_renamed injective]
        rfl

theorem wait_renamed (thread : ThreadId) (lock : LockId) (timed : Bool) :
    (table.renamed rename).wait thread (rename lock) timed =
      renamedResult (Prod.map id (renamed rename)) rename (table.wait thread lock timed) := by
  unfold wait
  rw [owned_renamed injective]
  cases table.owned thread lock with
  | error fault => rfl
  | ok monitor =>
      have entering : { table.renamed rename with
          entering := (table.renamed rename).entering.insert thread (rename lock) } =
            { table with entering := table.entering.insert thread lock }.renamed rename := by
        simp only [renamed, Table.insert_mapValues]
      have waiting : { table.renamed rename with
          waiting := (table.renamed rename).waiting.insert thread (rename lock) } =
            { table with waiting := table.waiting.insert thread lock }.renamed rename := by
        simp only [renamed, Table.insert_mapValues]
      simp only [Except.mapError, bind, Except.bind]
      split
      · rw [entering, release_renamed injective]
        rfl
      · rw [waiting, release_renamed injective]
        rfl

theorem notify_renamed (thread : ThreadId) (lock : LockId) :
    (table.renamed rename).notify thread (rename lock) =
      renamedResult (renamed rename) rename (table.notify thread lock) := by
  unfold notify
  rw [owned_renamed injective]
  cases table.owned thread lock with
  | error fault => rfl
  | ok monitor =>
      simp only [Except.mapError, bind, Except.bind]
      rw [record_renamed injective]
      rfl

theorem notifyAll_renamed (thread : ThreadId) (lock : LockId) :
    (table.renamed rename).notifyAll thread (rename lock) =
      renamedResult (renamed rename) rename (table.notifyAll thread lock) := by
  unfold notifyAll
  rw [owned_renamed injective]
  cases table.owned thread lock with
  | error fault => rfl
  | ok monitor =>
      simp only [Except.mapError, bind, Except.bind]
      rw [record_renamed injective]
      rfl

theorem interrupt_renamed (thread : ThreadId) :
    (table.renamed rename).interrupt thread =
      Prod.map id (renamed rename) (table.interrupt thread) := by
  unfold interrupt
  rw [waitingFor?_renamed]
  cases table.waitingFor? thread with
  | none => rfl
  | some lock =>
      have erased : { table.renamed rename with
          waiting := (table.renamed rename).waiting.erase thread } =
            { table with waiting := table.waiting.erase thread }.renamed rename := by
        simp only [renamed, Table.erase_mapValues]
      dsimp only [Option.map_some]
      rw [erased, monitor?_renamed injective]
      split
      · rfl
      next monitor _ =>
        split
        · rfl
        · simp only [renamed, Table.insert_mapKeys injective, Table.insert_mapValues,
            Table.erase_mapValues]
          rfl

theorem resume_renamed (thread : ThreadId) :
    (table.renamed rename).resume thread =
      Prod.map id (renamed rename) (table.resume thread) := by
  unfold resume
  rw [entering?_renamed]
  cases table.entering? thread with
  | none => rfl
  | some lock =>
      dsimp only [Option.map_some]
      rw [monitor?_renamed injective]
      split
      · simp only [renamed, Table.erase_mapValues]
        rfl
      next monitor _ =>
        split
        · rfl
        · simp only [renamed, Table.insert_mapKeys injective, Table.erase_mapValues]
          rfl

end MonitorTable

end ScheduleSearch
