import ScheduleSearch.Decision.Source

/-!
# Following a trace

A replay answers every question as a recorded trace does, as long as the questions are the
recorded ones.  The first difference is kept until the execution ends, and from there on the
first option is taken.
-/

namespace ScheduleSearch

/-- How an execution departs from a trace. -/
inductive Divergence where
  /-- Nothing was offered. -/
  | nothingOffered
  /-- A decision comes up after the last recorded one. -/
  | pastTheEnd (label : String)
  /-- The decision comes up in another place. -/
  | otherLabel (found recorded : String)
  /-- Other threads are offered. -/
  | otherOptions (found recorded : List String)
  /-- The recorded choice is beyond the options. -/
  | choiceOutOfRange (choice : Nat)
  /-- The execution ended before the trace did. -/
  | endedEarly (taken recorded : Nat)
  deriving DecidableEq, Repr

def Divergence.text : Divergence → String
  | nothingOffered => "no options offered"
  | pastTheEnd label => "decision at \"" ++ label ++ "\" past the end of the trace"
  | otherLabel found recorded =>
      "label \"" ++ found ++ "\" does not match recorded \"" ++ recorded ++ "\""
  | otherOptions found recorded =>
      "options " ++ bracketed found ++ " do not match recorded " ++ bracketed recorded
  | choiceOutOfRange choice => "recorded choice " ++ toString choice ++ " is out of range"
  | endedEarly taken recorded =>
      "execution ended after " ++ toString taken ++ " of " ++ toString recorded ++
        " recorded decisions"

/-- The thread that a recorded decision chooses when a question is put to it. -/
def TraceStep.answer (step : TraceStep) (question : Question) : Except Divergence ThreadId :=
  if step.label != question.label then .error (.otherLabel question.label step.label)
  else if question.names != step.options then .error (.otherOptions question.names step.options)
  else
    match question.options[step.choice]? with
    | some chosen => .ok chosen
    | none => .error (.choiceOutOfRange step.choice)

/-- An explorer that follows a trace. -/
structure Replay where
  /-- The trace that is followed. -/
  recorded : Trace
  /-- The number of decisions of the current execution that agreed with the trace. -/
  step : Nat
  /-- Whether an execution has ended. -/
  finished : Bool
  /-- The fault to be reported at the end of the current execution. -/
  deferred : Option Fault
  deriving DecidableEq, Repr, Inhabited

namespace Replay

def ofTrace (recorded : Trace) : Replay where
  recorded := recorded
  step := 0
  finished := false
  deferred := none

/-- The fault of departing from the trace at the current step. -/
def diverged (replay : Replay) (divergence : Divergence) : Fault :=
  .replayDiverged replay.step divergence.text

/-- The thread that the trace chooses at the current step. -/
def follow (replay : Replay) (question : Question) : Except Divergence ThreadId :=
  match replay.recorded[replay.step]? with
  | none => .error (.pastTheEnd question.label)
  | some step => step.answer question

/-- Answers a question.  Only a question without options is refused at once. -/
def decide (replay : Replay) (question : Question) : Except Fault ThreadId × Replay :=
  match question.options with
  | [] => (.error (replay.diverged .nothingOffered), replay)
  | first :: _ =>
      if replay.deferred.isSome then (.ok first, replay)
      else
        match replay.follow question with
        | .ok chosen => (.ok chosen, { replay with step := replay.step + 1 })
        | .error divergence =>
            (.ok first, { replay with deferred := some (replay.diverged divergence) })

/-- The execution ended.  The trace must have ended as well. -/
def finish (replay : Replay) : Except Fault Unit × Replay :=
  let rewound := { replay with step := 0, finished := true, deferred := none }
  match replay.deferred with
  | some fault => (.error fault, rewound)
  | none =>
      if replay.step < replay.recorded.length then
        (.error (replay.diverged (.endedEarly replay.step replay.recorded.length)), rewound)
      else (.ok (), rewound)

/-- The decisions of the current execution that agreed with the trace. -/
def trace (replay : Replay) : Trace :=
  replay.recorded.take replay.step

instance : Explorer Replay where
  decide := decide
  finish := finish
  isComplete := fun replay => replay.finished
  trace := trace
  estimate := fun _ => 1

end Replay

end ScheduleSearch
