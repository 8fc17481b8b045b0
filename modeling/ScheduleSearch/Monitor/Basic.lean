import ScheduleSearch.Table
import ScheduleSearch.Thread.Order

/-!
# Monitors

A monitor is a lock that its owner may take again, together with the queue of threads that
wait for a signal on it.  Signals are buffered and delivered when the owner lets go.
-/

namespace ScheduleSearch

/-- The number that tells one lock from another. -/
structure LockId where
  number : Nat
  deriving DecidableEq, Repr, Inhabited

namespace LockId

instance : Ord LockId := ⟨fun left right => compare left.number right.number⟩

instance : Std.TransOrd LockId where
  eq_swap := by
    intro left right
    change compare left.number right.number = (compare right.number left.number).swap
    exact Std.OrientedCmp.eq_swap
  isLE_trans := by
    intro first second third
    change (compare first.number second.number).isLE → (compare second.number third.number).isLE →
      (compare first.number third.number).isLE
    exact Std.TransCmp.isLE_trans

def text (lock : LockId) : String :=
  "lock#" ++ toString lock.number

end LockId

/-- A queued thread with the depth at which it will own the lock again. -/
structure Waiter where
  thread : ThreadId
  depth : Nat
  deriving DecidableEq, Repr, Inhabited

/-- The state of one monitor. -/
structure Monitor where
  /-- The thread that holds the lock. -/
  owner : Option ThreadId
  /-- How many times the owner has entered without leaving. -/
  depth : Nat
  /-- The threads that want to enter, the longest waiting first. -/
  entryQueue : List Waiter
  /-- The threads that wait for a signal, the longest waiting first. -/
  signalQueue : List Waiter
  /-- The number of signals that were sent and not yet delivered. -/
  pendingSignals : Nat
  deriving DecidableEq, Repr, Inhabited

namespace Monitor

/-- A monitor that nobody holds or waits for. -/
def free : Monitor where
  owner := none
  depth := 0
  entryQueue := []
  signalQueue := []
  pendingSignals := 0

/-- Whether some thread holds the lock. -/
def isHeld (monitor : Monitor) : Bool :=
  monitor.owner.isSome

/-- Whether `thread` holds the lock. -/
def isOwnedBy (monitor : Monitor) (thread : ThreadId) : Bool :=
  match monitor.owner with
  | some owner => owner.same thread
  | none => false

/-- Whether nobody holds the lock, nobody is queued and no signal is pending. -/
def isIdle (monitor : Monitor) : Bool :=
  monitor.owner.isNone && monitor.entryQueue.isEmpty && monitor.signalQueue.isEmpty &&
    monitor.pendingSignals == 0

end Monitor

/-- The depth saved for the first place of `thread` in a queue. -/
def savedDepth? (queue : List Waiter) (thread : ThreadId) : Option Nat :=
  (queue.find? (fun waiter => waiter.thread.same thread)).map (·.depth)

def withoutWaiter (queue : List Waiter) (thread : ThreadId) : List Waiter :=
  queue.eraseP (fun waiter => waiter.thread.same thread)

end ScheduleSearch
