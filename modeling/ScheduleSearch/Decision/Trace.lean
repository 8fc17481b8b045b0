/-!
# Decision traces

The decisions of one execution, first to last: where each was taken, which threads were
offered and which of them was chosen.  Threads are recorded by name, so a trace can be
written down and followed in another execution.
-/

namespace ScheduleSearch

/-- One decision. -/
structure TraceStep where
  /-- Where the decision was taken. -/
  label : String
  /-- The names of the offered threads. -/
  options : List String
  /-- The position of the chosen thread among them. -/
  choice : Nat
  deriving DecidableEq, Repr, Inhabited

/-- The decisions of one execution, in order. -/
abbrev Trace : Type := List TraceStep

/-- The name of the chosen thread, unless the choice is out of range. -/
def TraceStep.chosen? (step : TraceStep) : Option String :=
  step.options[step.choice]?

/-- Names in square brackets. -/
def bracketed (names : List String) : String :=
  "[" ++ ", ".intercalate names ++ "]"

/-- A number right-aligned in three columns. -/
def threeColumns (number : Nat) : String :=
  let digits := toString number
  String.ofList (List.replicate (3 - digits.length) ' ') ++ digits

namespace Trace

def labels (trace : Trace) : List String :=
  trace.map (·.label)

/-- The line of the text that shows the decision with the given number. -/
def line (number : Nat) (step : TraceStep) : String :=
  "  " ++ threeColumns number ++ ". " ++ step.label ++ " -> " ++ step.chosen?.getD "?" ++
    " of " ++ bracketed step.options

/-- The text a trace is shown as: one numbered line for each decision. -/
def text (trace : Trace) : String :=
  if trace.isEmpty then "  (no decisions)"
  else "\n".intercalate (trace.mapIdx fun index step => line (index + 1) step)

end Trace

end ScheduleSearch
