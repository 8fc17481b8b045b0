import ScheduleSearch.Checkpoint.Writer
import ScheduleSearch.Decision.Source
import ScheduleSearch.Harness.Config

/-!
# Checking a test

A harness runs a test again and again under one explorer, until an execution fails, nothing
is left to try, or the limit of executions is reached.  The explorer stays as it is between
checks, so a check that stopped at its limit can be continued.
-/

namespace ScheduleSearch

/-- A test: from what it remembers of earlier executions and an explorer, one execution.  It
yields the fault of the execution, if any. -/
abbrev Test (τ σ : Type) : Type := τ → σ → Option Fault × τ × σ

/-- A check that found no failure. -/
structure Report where
  /-- The number of executions made. -/
  iterations : Nat
  /-- Whether nothing is left to try. -/
  complete : Bool
  /-- A guess at the number of executions needed in all. -/
  estimated : Nat
  deriving DecidableEq, Repr, Inhabited

/-- An execution that failed. -/
structure Failure where
  fault : Fault
  /-- The decisions of the execution. -/
  trace : Trace
  /-- The number of the execution within its check. -/
  iteration : Nat
  deriving DecidableEq, Repr, Inhabited

def Failure.text (failure : Failure) : String :=
  failure.fault.message ++ "\n  in execution " ++ toString failure.iteration ++
    ", decision trace:\n" ++ failure.trace.text

/-- What comes of a check. -/
inductive Verdict where
  /-- No failure was found. -/
  | passed (report : Report)
  /-- An execution failed. -/
  | failed (failure : Failure)
  /-- More executions than could be counted were needed. -/
  | undecided
  deriving DecidableEq, Repr, Inhabited

/-- An explorer with a valid configuration. -/
structure Harness (σ : Type) where
  config : Config
  explorer : σ

namespace Harness

variable {σ τ : Type}

/-- A harness with the given configuration, or with the default one if that is not valid. -/
def ofConfig (explorer : σ) (config : Config) : Harness σ where
  config := config.orDefault
  explorer := explorer

variable [Explorer σ]

/-- Ends the current execution.  A fault that the explorer put off goes before the fault of
the execution. -/
def endExecution (fault : Option Fault) (explorer : σ) : Option Fault × σ :=
  match Explorer.finish explorer with
  | (.error deferred, rewound) => (some deferred, rewound)
  | (.ok (), rewound) => (fault, rewound)

/-- Runs a test until the verdict is reached, at most as often as `budget` says.  `iterations`
executions were made before. -/
def checkFrom (test : Test τ σ) (limit : Option Nat) :
    Nat → Nat → τ → σ → Verdict × τ × σ
  | budget, iterations, memory, explorer =>
      if limit.any (· ≤ iterations) then
        (.passed ⟨iterations, false, Explorer.estimate explorer⟩, memory, explorer)
      else
        match budget with
        | 0 => (.undecided, memory, explorer)
        | budget + 1 =>
            let (fault, memory, explorer) := test memory explorer
            let trace := Explorer.trace explorer
            match endExecution fault explorer with
            | (some fault, explorer) =>
                (.failed ⟨fault, trace, iterations + 1⟩, memory, explorer)
            | (none, explorer) =>
                if Explorer.isComplete explorer then
                  (.passed ⟨iterations + 1, true, Explorer.estimate explorer⟩, memory, explorer)
                else checkFrom test limit budget (iterations + 1) memory explorer

/-- Checks a test.  The harness keeps the explorer for the next check. -/
def check (harness : Harness σ) (budget : Nat) (test : Test τ σ) (memory : τ) :
    Verdict × τ × Harness σ :=
  let (verdict, memory, explorer) :=
    checkFrom test harness.config.maxIterations budget 0 memory harness.explorer
  (verdict, memory, { harness with explorer := explorer })

omit [Explorer σ] in
/-- The checkpoint that a check leaves behind: the trace of a failure, if the configuration
names a file for it. -/
def saved (harness : Harness σ) : Verdict → Option String
  | .failed failure => harness.config.checkpoint.map fun _ => Checkpoint.write failure.trace
  | _ => none

end Harness

end ScheduleSearch
