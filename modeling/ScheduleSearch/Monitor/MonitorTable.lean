import ScheduleSearch.Fault

/-!
# The monitors of an execution

A `MonitorTable` holds the monitors in use and, for each thread, the lock it is queued to
enter and the lock whose signal it waits for.  A monitor is recorded from the first attempt
to enter it until it is idle again.

A thread that finds a lock held joins the entry queue and is blocked.  It is not handed the
lock: when the lock is let go, all threads of the entry queue may try again, and `resume`
grants the lock to the first of them that runs.  A thread that waits for a signal gives the
lock up entirely and, once signalled, comes back through the entry queue at the depth it had.
-/

namespace ScheduleSearch

/-- What an operation on monitors asks of the run states. -/
structure Transition where
  /-- Threads that must wait. -/
  blocked : List ThreadId
  /-- Threads that may try again. -/
  unblocked : List ThreadId
  deriving DecidableEq, Repr, Inhabited

namespace Transition

/-- Nothing is asked. -/
def none : Transition := ⟨[], []⟩

/-- One thread must wait. -/
def block (thread : ThreadId) : Transition := ⟨[thread], []⟩

/-- Some threads may try again. -/
def unblock (threads : List ThreadId) : Transition := ⟨[], threads⟩

/-- Whether nothing is asked. -/
def isEmpty (transition : Transition) : Bool :=
  transition.blocked.isEmpty && transition.unblocked.isEmpty

end Transition

/-- The monitors in use and the threads queued on them. -/
structure MonitorTable where
  /-- The monitors that are held or waited for. -/
  monitors : Table LockId Monitor
  /-- For each thread of an entry queue, the lock it wants. -/
  entering : Table ThreadId LockId
  /-- For each thread of a signal queue, the lock whose signal it awaits. -/
  waiting : Table ThreadId LockId
  deriving DecidableEq, Inhabited

namespace Monitor

/-- The waiters to whom the pending signals will go. -/
def signalled (monitor : Monitor) : List Waiter :=
  monitor.signalQueue.take monitor.pendingSignals

/-- The monitor after its owner let go: the pending signals are delivered, each to the longest
waiting thread, which moves to the back of the entry queue. -/
def released (monitor : Monitor) : Monitor where
  owner := none
  depth := 0
  entryQueue := monitor.entryQueue ++ monitor.signalled
  signalQueue := monitor.signalQueue.drop monitor.pendingSignals
  pendingSignals := 0

end Monitor

namespace MonitorTable

def empty : MonitorTable := ⟨Table.empty, Table.empty, Table.empty⟩

def monitor? (table : MonitorTable) (lock : LockId) : Option Monitor :=
  table.monitors.get? lock

/-- The lock that `thread` is queued to enter. -/
def entering? (table : MonitorTable) (thread : ThreadId) : Option LockId :=
  table.entering.get? thread

/-- The lock whose signal `thread` waits for. -/
def waitingFor? (table : MonitorTable) (thread : ThreadId) : Option LockId :=
  table.waiting.get? thread

def owner? (table : MonitorTable) (lock : LockId) : Option ThreadId :=
  (table.monitor? lock).bind (·.owner)

/-- How deep a lock is held; a free lock is held to depth zero. -/
def depth (table : MonitorTable) (lock : LockId) : Nat :=
  (table.monitor? lock).elim 0 (·.depth)

/-- The number of signals on a lock that were not delivered yet. -/
def pendingSignals (table : MonitorTable) (lock : LockId) : Nat :=
  (table.monitor? lock).elim 0 (·.pendingSignals)

def isTracked (table : MonitorTable) (lock : LockId) : Bool :=
  table.monitors.contains lock

def size (table : MonitorTable) : Nat :=
  table.monitors.size

def isEmpty (table : MonitorTable) : Bool :=
  table.monitors.isEmpty

/-- The record of a lock that `thread` holds. -/
def owned (table : MonitorTable) (thread : ThreadId) (lock : LockId) : Except Fault Monitor :=
  match table.monitor? lock with
  | some monitor =>
      if monitor.isOwnedBy thread then .ok monitor
      else .error (.illegalMonitorState thread lock)
  | none => .error (.illegalMonitorState thread lock)

def record (table : MonitorTable) (lock : LockId) (monitor : Monitor) : MonitorTable :=
  { table with monitors := table.monitors.insert lock monitor }

/-- Frees a lock and delivers its pending signals.  Every thread that is then queued to enter
may try again.  A monitor that is idle afterwards is dropped. -/
def release (table : MonitorTable) (lock : LockId) (monitor : Monitor) :
    List ThreadId × MonitorTable :=
  let woken := monitor.signalled
  let after := monitor.released
  (after.entryQueue.map (·.thread),
    { monitors :=
        if after.isIdle then table.monitors.erase lock else table.monitors.insert lock after
      entering := woken.foldl (fun entering waiter => entering.insert waiter.thread lock)
        table.entering
      waiting := woken.foldl (fun waiting waiter => waiting.erase waiter.thread)
        table.waiting })

/-- `thread` tries to enter `lock`: a free lock is granted, an owned one is entered once more,
and for a lock of another thread the caller is queued and blocked. -/
def enter (table : MonitorTable) (thread : ThreadId) (lock : LockId) :
    Transition × MonitorTable :=
  let monitor := (table.monitor? lock).getD .free
  if !monitor.isHeld then
    (.none, table.record lock { monitor with owner := some thread, depth := 1 })
  else if monitor.isOwnedBy thread then
    (.none, table.record lock { monitor with depth := monitor.depth + 1 })
  else
    (.block thread,
      { monitors := table.monitors.insert lock
          { monitor with entryQueue := monitor.entryQueue ++ [⟨thread, 1⟩] }
        entering := table.entering.insert thread lock
        waiting := table.waiting })

/-- `thread` leaves `lock` once.  Leaving it for the last time frees it. -/
def leave (table : MonitorTable) (thread : ThreadId) (lock : LockId) :
    Except Fault (Transition × MonitorTable) := do
  let monitor ← table.owned thread lock
  let left := { monitor with depth := monitor.depth - 1 }
  if left.depth > 0 then
    return (.none, table.record lock left)
  else
    let (unblocked, table) := table.release lock left
    return (.unblock unblocked, table)

/-- `thread` gives up `lock` entirely and waits for a signal.  A timed wait ends at once: the
thread goes straight to the entry queue and is not blocked on the signal. -/
def wait (table : MonitorTable) (thread : ThreadId) (lock : LockId) (timed : Bool) :
    Except Fault (Transition × MonitorTable) := do
  let monitor ← table.owned thread lock
  let place : Waiter := ⟨thread, monitor.depth⟩
  if timed then
    let (unblocked, table) :=
      { table with entering := table.entering.insert thread lock }.release lock
        { monitor with entryQueue := monitor.entryQueue ++ [place] }
    return (⟨[], unblocked⟩, table)
  else
    let (unblocked, table) :=
      { table with waiting := table.waiting.insert thread lock }.release lock
        { monitor with signalQueue := monitor.signalQueue ++ [place] }
    return (⟨[thread], unblocked⟩, table)

/-- The owner sends one signal.  No more signals are pending than threads wait for one. -/
def notify (table : MonitorTable) (thread : ThreadId) (lock : LockId) :
    Except Fault MonitorTable := do
  let monitor ← table.owned thread lock
  return table.record lock
    { monitor with pendingSignals := min (monitor.pendingSignals + 1) monitor.signalQueue.length }

/-- The owner sends a signal to every thread that waits for one. -/
def notifyAll (table : MonitorTable) (thread : ThreadId) (lock : LockId) :
    Except Fault MonitorTable := do
  let monitor ← table.owned thread lock
  return table.record lock { monitor with pendingSignals := monitor.signalQueue.length }

/-- Interrupts a thread that waits for a signal: it moves to the entry queue, and may try to
enter at once if the lock is free.  Other threads are not affected. -/
def interrupt (table : MonitorTable) (thread : ThreadId) : Transition × MonitorTable :=
  match table.waitingFor? thread with
  | none => (.none, table)
  | some lock =>
      let table := { table with waiting := table.waiting.erase thread }
      match table.monitor? lock with
      | none => (.none, table)
      | some monitor =>
          match savedDepth? monitor.signalQueue thread with
          | none => (.none, table)
          | some depth =>
              let left := withoutWaiter monitor.signalQueue thread
              let moved := { monitor with
                entryQueue := monitor.entryQueue ++ [⟨thread, depth⟩]
                signalQueue := left
                pendingSignals := min monitor.pendingSignals left.length }
              (if monitor.isHeld then .none else .unblock [thread],
                { monitors := table.monitors.insert lock moved
                  entering := table.entering.insert thread lock
                  waiting := table.waiting })

/-- `thread` was chosen to run and tries again to enter the lock it is queued for.  It becomes
the owner at its saved depth if the lock is free and is blocked again if it is not. -/
def resume (table : MonitorTable) (thread : ThreadId) : Transition × MonitorTable :=
  match table.entering? thread with
  | none => (.none, table)
  | some lock =>
      match table.monitor? lock with
      | none => (.none, { table with entering := table.entering.erase thread })
      | some monitor =>
          if monitor.isHeld then (.block thread, table)
          else
            (.none,
              { monitors := table.monitors.insert lock
                  { monitor with
                    owner := some thread
                    depth := (savedDepth? monitor.entryQueue thread).getD 1
                    entryQueue := withoutWaiter monitor.entryQueue thread }
                entering := table.entering.erase thread
                waiting := table.waiting })

end MonitorTable

end ScheduleSearch
