import ScheduleSearch.Monitor.Basic

/-!
# Run states

Every live thread is running, runnable or blocked, and a blocked thread has at most one
reason.  The table of run states refuses to let a second thread run beside the one that is
running: that is not an error of the test but a broken assumption of the caller, a
`Violation`.
-/

namespace ScheduleSearch

/-- What a blocked thread waits for. -/
inductive BlockReason where
  /-- The lock is held by another thread. -/
  | lock (held : LockId)
  /-- No signal has come for the thread yet. -/
  | signal (awaited : LockId)
  /-- The thread parked without a permit. -/
  | park
  /-- The thread `joinee` has not reached its exit. -/
  | join (joinee : ThreadId)
  deriving DecidableEq, Repr, Inhabited

def BlockReason.text : BlockReason → String
  | lock held => held.text
  | signal awaited => "signal of " ++ awaited.text
  | park => "park"
  | join joinee => "join of " ++ joinee.name

/-- What a live thread is doing. -/
inductive RunState where
  /-- The thread executes test code. -/
  | running
  /-- The thread could execute test code if it were chosen. -/
  | runnable
  /-- The thread waits, for the reason that was given when it was blocked. -/
  | blocked (reason : Option BlockReason)
  deriving DecidableEq, Repr, Inhabited

namespace RunState

/-- Whether the thread executes test code. -/
def isRunning : RunState → Bool
  | running => true
  | _ => false

/-- Whether the thread could be chosen. -/
def isRunnable : RunState → Bool
  | runnable => true
  | _ => false

/-- Whether the thread waits. -/
def isBlocked : RunState → Bool
  | blocked _ => true
  | _ => false

/-- What the thread waits for. -/
def reason? : RunState → Option BlockReason
  | blocked reason => reason
  | _ => none

def word : RunState → String
  | running => "RUNNING"
  | runnable => "RUNNABLE"
  | blocked _ => "BLOCKED"

end RunState

/-- An assumption of the run-state table that a caller broke. -/
inductive Violation where
  /-- A thread was registered as running while one was running. -/
  | secondRunningRegistered
  /-- A thread was set running while another one was running. -/
  | secondRunningChosen
  deriving DecidableEq, Repr

def Violation.message : Violation → String
  | secondRunningRegistered => "registering a second RUNNING thread"
  | secondRunningChosen => "a second thread would become RUNNING"

/-- The live threads with their run states, in the order of threads. -/
structure RunStates where
  table : Table ThreadId RunState
  deriving DecidableEq, Inhabited

namespace RunStates

def empty : RunStates := ⟨Table.empty⟩

def state? (states : RunStates) (thread : ThreadId) : Option RunState :=
  states.table.get? thread

def contains (states : RunStates) (thread : ThreadId) : Bool :=
  states.table.contains thread

def size (states : RunStates) : Nat :=
  states.table.size

def isEmpty (states : RunStates) : Bool :=
  states.table.isEmpty

/-- The live threads whose run state passes a test, in the order of threads. -/
def threadsWhere (states : RunStates) (test : RunState → Bool) : List ThreadId :=
  (states.table.entries.filter (fun entry => test entry.2)).map (·.1)

def running? (states : RunStates) : Option ThreadId :=
  (states.threadsWhere RunState.isRunning).head?

def hasRunning (states : RunStates) : Bool :=
  states.running?.isSome

def runningCount (states : RunStates) : Nat :=
  (states.threadsWhere RunState.isRunning).length

/-- The runnable threads, in the order of threads. -/
def runnable (states : RunStates) : List ThreadId :=
  states.threadsWhere RunState.isRunnable

def blocked (states : RunStates) : List (ThreadId × Option BlockReason) :=
  (states.table.entries.filter (fun entry => entry.2.isBlocked)).map
    (fun entry => (entry.1, entry.2.reason?))

/-- Whether there are live threads and all of them wait. -/
def isDeadlocked (states : RunStates) : Bool :=
  !states.isEmpty && states.table.values.all RunState.isBlocked

def isRunning (states : RunStates) (thread : ThreadId) : Bool :=
  (states.state? thread).any RunState.isRunning

/-- Whether `thread` is live and waits. -/
def isBlocked (states : RunStates) (thread : ThreadId) : Bool :=
  (states.state? thread).any RunState.isBlocked

/-- What `thread` waits for. -/
def reason? (states : RunStates) (thread : ThreadId) : Option BlockReason :=
  (states.state? thread).bind RunState.reason?

/-- Enters a thread into the table.  A thread that is live already takes on the new state. -/
def register (states : RunStates) (thread : ThreadId) (state : RunState) :
    Except Violation RunStates :=
  if state.isRunning && states.hasRunning then .error .secondRunningRegistered
  else .ok ⟨states.table.insert thread state⟩

def set (states : RunStates) (thread : ThreadId) (state : RunState) : RunStates :=
  ⟨states.table.modify thread (fun _ => state)⟩

/-- Lets `thread` run, which it may only while no other thread does. -/
def setRunning (states : RunStates) (thread : ThreadId) : Except Violation RunStates :=
  if states.running?.all (fun current => current.same thread) then
    .ok (states.set thread .running)
  else .error .secondRunningChosen

def setRunnable (states : RunStates) (thread : ThreadId) : RunStates :=
  states.set thread .runnable

def setBlocked (states : RunStates) (thread : ThreadId) (reason : BlockReason) : RunStates :=
  states.set thread (.blocked (some reason))

/-- Makes `thread` runnable if it waits. -/
def unblock (states : RunStates) (thread : ThreadId) : RunStates :=
  ⟨states.table.modify thread fun state => if state.isBlocked then .runnable else state⟩

/-- Takes a thread out of the table. -/
def remove (states : RunStates) (thread : ThreadId) : RunStates :=
  ⟨states.table.erase thread⟩

end RunStates

end ScheduleSearch
