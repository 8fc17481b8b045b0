import ScheduleSearch.Exploration.EventProgram

/-!
# Searching the executions of a program of events

One explorer steers execution after execution of the same program, each from a fresh state,
until none is left to try, an execution contradicts an earlier one, or enough were made.
-/

namespace ScheduleSearch

/-- One execution of a search. -/
structure ExploredRun where
  /-- The events that were applied. -/
  history : History
  /-- How the execution ended. -/
  ending : Ending
  /-- The decisions that were taken. -/
  trace : Trace
  deriving DecidableEq, Repr

/-- What came of a search. -/
structure Search (σ : Type) where
  /-- The executions, in order. -/
  runs : List ExploredRun
  /-- The explorer after the last execution. -/
  explorer : σ
  /-- What the explorer reported at the end of the last execution. -/
  lastFinish : Option (Except Fault Unit)

namespace EventProgram

variable {σ : Type} [Explorer σ]

def exploreOnce (program : EventProgram) (maxDecisions : Nat) (explorer : σ) :
    ExploredRun × Except Fault Unit × σ :=
  let run := program.run explorer maxDecisions
  let steered := run.final.source
  let (finished, rewound) := Explorer.finish steered
  ({ history := run.history, ending := run.ending, trace := Explorer.trace steered },
    finished, rewound)

/-- Runs the program until nothing is left to try, at most the given number of times. -/
def explore (program : EventProgram) (maxDecisions : Nat) :
    Nat → σ → Option (Except Fault Unit) → Search σ
  | 0, explorer, lastFinish => ⟨[], explorer, lastFinish⟩
  | runs + 1, explorer, lastFinish =>
      if Explorer.isComplete explorer then ⟨[], explorer, lastFinish⟩
      else
        match program.exploreOnce maxDecisions explorer with
        | (run, .error fault, rewound) => ⟨[run], rewound, some (.error fault)⟩
        | (run, .ok (), rewound) =>
            let search := program.explore maxDecisions runs rewound (some (.ok ()))
            { search with runs := run :: search.runs }

end EventProgram

end ScheduleSearch
