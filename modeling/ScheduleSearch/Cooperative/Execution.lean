import ScheduleSearch.Cooperative.Machine
import ScheduleSearch.Harness.Check

/-!
# Programs as tests

A program over the cooperative primitives is a test: each execution starts anew and leaves
its log and the final values of the shared variables in a journal.

The number of threads is bounded by the decisions allowed, since spawning a thread lets it
take over and so calls for a decision.  Together with the cost of the longest list this bounds
the steps of an execution.
-/

namespace ScheduleSearch

/-- What is kept of one execution. -/
structure JournalEntry where
  log : List LogEntry
  shared : List Int64

/-- What is kept of all executions, the last one first. -/
abbrev Journal : Type := List JournalEntry

namespace Journal

/-- The texts of the logs, in the order of the executions. -/
def logs (journal : Journal) : List String :=
  journal.reverse.map fun entry => logText entry.log

def distinctLogs (journal : Journal) : Nat :=
  (KeySet.ofList journal.logs).size

/-- The different final values of the shared variables, in ascending order. -/
def finals (journal : Journal) : List (List Int) :=
  (KeySet.ofList (journal.map fun entry => entry.shared.map Int64.toInt)).keys

end Journal

namespace Program

/-- A number of steps that no execution exceeds. -/
def steps (program : Program) (maxDecisions : Nat) : Nat :=
  (maxDecisions + 2) * program.threadCost

def execute {σ : Type} [DecisionSource σ] (program : Program) (maxDecisions run : Nat)
    (source : σ) : Machine σ :=
  (Machine.start program run source maxDecisions).steps (program.steps maxDecisions)

def test {σ : Type} [DecisionSource σ] (program : Program) (maxDecisions : Nat) :
    Test Journal σ := fun journal source =>
  let ended := program.execute maxDecisions (journal.length + 1) source
  (ended.gate.failure,
    ⟨ended.log.toList, ended.shared.toList⟩ :: journal, ended.gate.model.source)

end Program

end ScheduleSearch
