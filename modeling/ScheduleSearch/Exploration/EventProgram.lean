import ScheduleSearch.Scheduler.Step

/-!
# Programs of events

A program of events lists, for each thread by name, the events it reports before its exit.
Running it, the running thread reports its next event until the execution is over.

Every event but an exit shortens a list, and an exit takes a live thread away, so a run ends
within `EventProgram.steps` events: twice the number of listed events, since each may
announce a thread, and one for the root and for the end.
-/

namespace ScheduleSearch

/-- For each thread, by name, the events it still has to report before its exit. -/
structure EventProgram where
  lists : Table String (List Event)
  deriving DecidableEq, Inhabited

/-- The events that were applied, first to last, each with its acting thread. -/
abbrev History : Type := List (ThreadId × Event)

/-- How a run of a program ends. -/
inductive Ending where
  /-- Every thread reached its exit. -/
  | quiescent
  /-- The last event did not succeed. -/
  | halted (halt : Halt)
  /-- No thread was left to report an event, or too many events were reported. -/
  | unfinished
  deriving DecidableEq, Repr

/-- What happened in a run. -/
structure EventRun (σ : Type) where
  /-- The events that were applied, the last one included even if it did not succeed. -/
  history : History
  /-- How the run ended. -/
  ending : Ending
  /-- The state after the last event. -/
  final : Scheduler σ

namespace EventProgram

def ofLists (lists : List (String × List Event)) : EventProgram :=
  ⟨lists.foldl (fun table (name, events) => table.insert name events) Table.empty⟩

def size (program : EventProgram) : Nat :=
  program.lists.values.flatten.length

/-- A number of events that no run of the program exceeds. -/
def steps (program : EventProgram) : Nat :=
  2 * program.size + 2

/-- The next event of `thread`, which is its exit when its list is used up, and the program
without that event. -/
def next (program : EventProgram) (thread : ThreadId) : Event × EventProgram :=
  match program.lists.get? thread.name with
  | some (event :: rest) => (event, ⟨program.lists.insert thread.name rest⟩)
  | _ => (.exit, program)

variable {σ : Type} [DecisionSource σ]

/-- Lets the running thread report its next event, at most the given number of times. -/
def runWithin : Nat → EventProgram → Scheduler σ → EventRun σ
  | 0, _, state => ⟨[], .unfinished, state⟩
  | steps + 1, program, state =>
      match state.running? with
      | none => ⟨[], .unfinished, state⟩
      | some actor =>
          let (event, rest) := program.next actor
          match state.step actor event with
          | (.error halt, halted) => ⟨[(actor, event)], .halted halt, halted⟩
          | (.ok (.schedule .quiescent), ended) => ⟨[(actor, event)], .quiescent, ended⟩
          | (.ok _, after) =>
              let run := runWithin steps rest after
              { run with history := (actor, event) :: run.history }

def rootHost : Host := 0

def run (program : EventProgram) (source : σ) (maxDecisions : Nat) : EventRun σ :=
  match (Scheduler.fresh source maxDecisions).begin rootHost with
  | (.ok _, begun) => runWithin program.steps program begun
  | (.error halt, halted) => ⟨[], .halted halt, halted⟩

end EventProgram

end ScheduleSearch
