import ScheduleSearch.Checkpoint.Lexeme
import ScheduleSearch.Decision.Trace

/-!
# Writing checkpoints

A trace is written as an object with the one field `steps`, the list of its decisions, each
an object with its label, its options and its choice.  Every element and every field stands
on a line of its own, two blanks further in than what holds it, and nothing is on a line of
its own inside empty brackets.
-/

namespace ScheduleSearch.Checkpoint

/-- The start of a line at some depth of nesting. -/
def newline (depth : Nat) : List Char :=
  '\n' :: List.replicate (2 * depth) ' '

/-- Items on lines of their own, with commas between them. -/
def separated (depth : Nat) : List (List Char) → List Char
  | [] => []
  | [item] => newline depth ++ item
  | item :: rest => newline depth ++ item ++ ',' :: separated depth rest

/-- Items between brackets, one level further in than `depth`. -/
def bracketedItems (opening closing : Char) (depth : Nat) (items : List (List Char)) :
    List Char :=
  if items.isEmpty then [opening, closing]
  else opening :: separated (depth + 1) items ++ newline depth ++ [closing]

def array (depth : Nat) (items : List (List Char)) : List Char :=
  bracketedItems '[' ']' depth items

/-- One field of an object. -/
def member (name : String) (value : List Char) : List Char :=
  quoted name ++ ':' :: ' ' :: value

def object (depth : Nat) (members : List (List Char)) : List Char :=
  bracketedItems '\x7b' '\x7d' depth members

/-- How a decision is written. -/
def stepText (step : TraceStep) : List Char :=
  object 2
    [member "label" (quoted step.label),
      member "options" (array 3 (step.options.map quoted)),
      member "choice" (digits step.choice)]

def traceText (trace : Trace) : List Char :=
  object 0 [member "steps" (array 1 (trace.map stepText))]

def write (trace : Trace) : String :=
  String.ofList (traceText trace)

end ScheduleSearch.Checkpoint
