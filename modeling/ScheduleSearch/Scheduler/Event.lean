import ScheduleSearch.Fault

/-!
# Events

What a running thread reports to the scheduler, and what it is told.
-/

namespace ScheduleSearch

/-- A place in the text of a test. -/
structure Site where
  file : String
  line : Nat
  column : Nat
  deriving DecidableEq, Repr, Inhabited

def Site.text (site : Site) : String :=
  site.file ++ ":" ++ toString site.line ++ ":" ++ toString site.column

/-- Something a thread does after which it may have to wait for its turn. -/
inductive Action where
  /-- Passes a place where another thread may take over. -/
  | yield (site : Site)
  /-- Enters a lock, waiting for its holder if need be. -/
  | enter (lock : LockId)
  /-- Leaves a lock once; another thread may take over. -/
  | leave (lock : LockId)
  /-- Gives up a lock and waits for a signal on it, or only lets others go first if timed. -/
  | wait (lock : LockId) (timed : Bool)
  /-- Sends one signal on a lock it holds. -/
  | notify (lock : LockId)
  /-- Sends a signal to every thread that waits on a lock it holds. -/
  | notifyAll (lock : LockId)
  /-- Waits for a permit. -/
  | park
  /-- Gives `target` a permit, or wakes it if it is parked. -/
  | unpark (target : ThreadId)
  /-- Waits for the exit of `joinee`, or only lets others go first if timed. -/
  | join (joinee : ThreadId) (timed : Bool)
  /-- Sets the interrupt flag of `target`. -/
  | interrupt (target : ThreadId)
  deriving DecidableEq, Repr, Inhabited

/-- Something that happens to an execution, on behalf of an acting thread. -/
inductive Event where
  /-- The thread announces a child, which is runnable from now on. -/
  | announce
  /-- A host thread starts to carry the thread. -/
  | bind (host : Nat)
  /-- The thread reaches its exit. -/
  | exit
  /-- The thread lets another one take over without naming a place. -/
  | choose
  /-- The thread reads its own interrupt flag and clears it if asked to. -/
  | readInterrupt (clear : Bool)
  /-- The thread does something after which it may have to wait. -/
  | act (action : Action)
  deriving DecidableEq, Repr, Inhabited

/-- Who runs after an event. -/
inductive Schedule where
  /-- This thread was chosen. -/
  | resume (thread : ThreadId)
  /-- The acting thread goes on; nobody was chosen. -/
  | goOn
  /-- No thread is live. -/
  | quiescent
  deriving DecidableEq, Repr, Inhabited

def Schedule.text : Schedule → String
  | resume thread => "RESUME(" ++ thread.name ++ ")"
  | goOn => "CONTINUE"
  | quiescent => "QUIESCENT"

/-- What an event that succeeds yields. -/
inductive Reply where
  /-- Who runs next. -/
  | schedule (schedule : Schedule)
  /-- The thread that was announced. -/
  | announced (thread : ThreadId)
  /-- The interrupt flag. -/
  | flag (isSet : Bool)
  /-- Nothing. -/
  | done
  deriving DecidableEq, Repr, Inhabited

/-- Why an event does not succeed. -/
inductive Halt where
  /-- The execution fails. -/
  | fault (fault : Fault)
  /-- The caller broke an assumption of the scheduler. -/
  | violation (violation : Violation)
  deriving DecidableEq, Repr

/-- What comes of an event. -/
abbrev Outcome (α : Type) : Type := Except Halt α

end ScheduleSearch
