import ScheduleSearch.Decision.Source
import ScheduleSearch.Monitor.MonitorTable
import ScheduleSearch.Scheduler.Event
import ScheduleSearch.Thread.Joins
import ScheduleSearch.Thread.Registry

/-!
# The state of an execution

A `Scheduler σ` is the model of one execution whose decisions are taken by a source of type
`σ`.  It composes the registry, the run states, the monitors and the joins with the permits,
interrupt flags and places of the single threads.
-/

namespace ScheduleSearch

/-- The model of one execution. -/
structure Scheduler (σ : Type) where
  /-- Which host threads carry which logical threads. -/
  registry : Registry
  /-- What each live thread is doing. -/
  threads : RunStates
  /-- The locks in use. -/
  monitors : MonitorTable
  /-- Who waits for whose exit. -/
  joins : Joins
  /-- The threads that will pass their next park at once. -/
  permits : KeySet ThreadId
  /-- The threads whose interrupt flag is set. -/
  interrupted : KeySet ThreadId
  /-- The threads that reached their exit. -/
  exited : KeySet ThreadId
  /-- The place each thread passed last. -/
  places : Table ThreadId Site
  rootExited : Bool
  /-- How many decisions were needed so far. -/
  decisions : Nat
  /-- How many decisions are allowed. -/
  maxDecisions : Nat
  /-- What takes the decisions. -/
  source : σ
  deriving DecidableEq

namespace Scheduler

variable {σ : Type}

/-- An execution that has not begun. -/
def fresh (source : σ) (maxDecisions : Nat) : Scheduler σ where
  registry := .empty
  threads := .empty
  monitors := .empty
  joins := .empty
  permits := Table.empty
  interrupted := Table.empty
  exited := Table.empty
  places := Table.empty
  rootExited := false
  decisions := 0
  maxDecisions := maxDecisions
  source := source

def isLive (state : Scheduler σ) (thread : ThreadId) : Bool :=
  state.threads.contains thread

def hasExited (state : Scheduler σ) (thread : ThreadId) : Bool :=
  state.exited.contains thread

def running? (state : Scheduler σ) : Option ThreadId :=
  state.threads.running?

/-- Whether no thread is live. -/
def isQuiescent (state : Scheduler σ) : Bool :=
  state.threads.isEmpty

/-- The fault of naming a thread that is not live. -/
def untracked (thread : ThreadId) : Halt :=
  .fault (.untrackedThread thread.name)

/-- The label of a decision that an event of `thread` calls for. -/
def label (state : Scheduler σ) (thread : ThreadId) : String :=
  match state.places.get? thread with
  | some site => thread.name ++ " @ " ++ site.text
  | none => thread.name ++ " @ start"

def exitLabel (thread : ThreadId) : String :=
  thread.name ++ " exit"

def idFor (state : Scheduler σ) (host : Host) : Outcome ThreadId :=
  match state.registry.idFor host with
  | .ok thread => .ok thread
  | .error fault => .error (.fault fault)

end Scheduler

end ScheduleSearch
