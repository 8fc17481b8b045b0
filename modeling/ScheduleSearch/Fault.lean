import ScheduleSearch.Thread.RunState

/-!
# Faults

A `Fault` is the cause for which an execution fails.  Three groups are told apart: *contract
violations*, in which the test or a decision source broke an assumption; *test failures*,
which are what the search looks for; and the rest, limits and control.
-/

namespace ScheduleSearch

/-- A thread that waits with nobody left to wake it. -/
structure StuckThread where
  thread : ThreadId
  /-- What it waits for. -/
  reason : Option BlockReason
  /-- The place in the test where it was last seen. -/
  lastSeen : Option String
  deriving DecidableEq, Repr, Inhabited

def StuckThread.text (stuck : StuckThread) : String :=
  stuck.thread.name ++
    (stuck.reason.elim "" fun reason => " blocked on " ++ reason.text) ++
    (stuck.lastSeen.elim "" fun place => " (last seen at " ++ place ++ ")")

/-- The cause for which an execution fails. -/
inductive Fault where
  /-- An event named a thread that is not live. -/
  | untrackedThread (who : String)
  /-- A thread used a monitor that it does not own. -/
  | illegalMonitorState (thread : ThreadId) (lock : LockId)
  /-- A decision differs from what was recorded at the same place before. -/
  | nondeterministicExecution (depth : Nat) (expected found : String)
  /-- A decision differs from the trace that is followed. -/
  | replayDiverged (step : Nat) (reason : String)
  /-- All live threads wait, the root among them. -/
  | deadlock (stuck : List StuckThread)
  /-- All live threads wait and the root has reached its exit. -/
  | danglingThreads (stuck : List StuckThread)
  /-- The test panicked. -/
  | testPanicked (thread : String) (message : String)
  /-- The execution needed more decisions than allowed. -/
  | decisionLimitExceeded (limit : Nat)
  /-- The execution has failed already, on another thread. -/
  | aborted
  /-- A saved trace could not be read. -/
  | checkpoint (detail : String)
  deriving DecidableEq, Repr, Inhabited

namespace Fault

def message : Fault → String
  | untrackedThread who => "Untracked thread: " ++ who
  | illegalMonitorState thread lock =>
      "Illegal monitor state: " ++ thread.name ++ " does not hold " ++ lock.text
  | nondeterministicExecution depth expected found =>
      "Nondeterministic execution at decision " ++ toString depth ++ ": expected " ++
        expected ++ ", found " ++ found
  | replayDiverged step reason => "Replay diverged at step " ++ toString step ++ ": " ++ reason
  | deadlock stuck =>
      "Deadlock detected: " ++ "; ".intercalate (stuck.map StuckThread.text)
  | danglingThreads stuck =>
      "Dangling threads never reached their exit: " ++
        "; ".intercalate (stuck.map StuckThread.text)
  | testPanicked thread message => "Test panicked on " ++ thread ++ ": " ++ message
  | decisionLimitExceeded limit =>
      "Decision limit of " ++ toString limit ++ " exceeded in a single execution"
  | aborted => "Execution aborted after a failure on another thread"
  | checkpoint detail => "Checkpoint error: " ++ detail

/-- Whether the test or a decision source broke an assumption of the search. -/
def isContractViolation : Fault → Bool
  | untrackedThread _ | illegalMonitorState .. | nondeterministicExecution .. |
    replayDiverged .. => true
  | _ => false

def isTestFailure : Fault → Bool
  | deadlock _ | danglingThreads _ | testPanicked .. => true
  | _ => false

end Fault

end ScheduleSearch
