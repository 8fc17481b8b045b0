import ScheduleSearch.Checkpoint.Skip
import ScheduleSearch.Checkpoint.Writer
import ScheduleSearch.Fault

/-!
# Reading checkpoints

Reading accepts more than is written: blanks between lexemes, the fields of an object in any
order and beside fields it does not know, and an object given as the array of its fields.  A
field that is missing or given twice is refused, and so is everything that is no JSON.
-/

namespace ScheduleSearch.Checkpoint

/-- Reads the elements of an array from the second on, up to the closing bracket. -/
def moreElements {α : Type} (element : Reader α) : Nat → Reader (List α)
  | 0, _ => none
  | rounds + 1, text =>
      match mark ']' text with
      | some closed => some ([], closed)
      | none => do
          let (value, rest) ← element (← mark ',' text)
          let (values, rest) ← moreElements element rounds rest
          return (value :: values, rest)

def arrayOf {α : Type} (element : Reader α) : Reader (List α) := fun text => do
  let opened ← mark '[' text
  match mark ']' opened with
  | some closed => return ([], closed)
  | none =>
      let (value, rest) ← element opened
      let (values, rest) ← moreElements element (rest.length + 1) rest
      return (value :: values, rest)

/-- How the fields read so far change with one more field of the given name. -/
abbrev FieldReader (β : Type) : Type := String → β → Reader β

/-- Reads the name of a field, the colon and the value. -/
def fieldOf {β : Type} (value : FieldReader β) (fields : β) : Reader β := fun text => do
  let (name, rest) ← string text
  value name fields (← mark ':' rest)

/-- Reads the fields of an object from the second on, up to the closing bracket. -/
def moreFields {β : Type} (value : FieldReader β) : Nat → β → Reader β
  | 0, _, _ => none
  | rounds + 1, fields, text =>
      match mark '\x7d' text with
      | some closed => some (fields, closed)
      | none => do
          let (fields, rest) ← fieldOf value fields (← mark ',' text)
          moreFields value rounds fields rest

/-- Reads an object, starting from no fields at all. -/
def objectOf {β : Type} (value : FieldReader β) (none : β) : Reader β := fun text => do
  let opened ← mark '\x7b' text
  match mark '\x7d' opened with
  | some closed => return (none, closed)
  | Option.none =>
      let (fields, rest) ← fieldOf value none opened
      moreFields value (rest.length + 1) fields rest

/-- Reads a field that must not have been read before. -/
def once {α : Type} (known : Option α) (value : Reader α) : Reader (Option α) := fun text =>
  match known with
  | some _ => none
  | none => (value text).map fun (read, rest) => (some read, rest)

/-- The fields of a decision read so far. -/
structure StepFields where
  label : Option String
  options : Option (List String)
  choice : Option Nat

def StepFields.none : StepFields := ⟨Option.none, Option.none, Option.none⟩

/-- The decision, once all fields were read. -/
def StepFields.step? (fields : StepFields) : Option TraceStep := do
  return { label := ← fields.label, options := ← fields.options, choice := ← fields.choice }

def stepField : FieldReader StepFields := fun name fields text =>
  if name = "label" then
    (once fields.label string text).map fun (label, rest) =>
      ({ fields with label := label }, rest)
  else if name = "options" then
    (once fields.options (arrayOf string) text).map fun (options, rest) =>
      ({ fields with options := options }, rest)
  else if name = "choice" then
    (once fields.choice unsigned text).map fun (choice, rest) =>
      ({ fields with choice := choice }, rest)
  else (skipValue text).map fun rest => (fields, rest)

def stepArray : Reader TraceStep := fun text => do
  let (label, rest) ← string (← mark '[' text)
  let (options, rest) ← arrayOf string (← mark ',' rest)
  let (choice, rest) ← unsigned (← mark ',' rest)
  return (⟨label, options, choice⟩, ← mark ']' rest)

def step : Reader TraceStep := fun text =>
  if (mark '[' text).isSome then stepArray text
  else do
    let (fields, rest) ← objectOf stepField .none text
    return (← fields.step?, rest)

def traceField : FieldReader (Option Trace) := fun name fields text =>
  if name = "steps" then once fields (arrayOf step) text
  else (skipValue text).map fun rest => (fields, rest)

/-- Reads a trace, which may be given as an array with its one field. -/
def trace : Reader Trace := fun text =>
  if (mark '[' text).isSome then do
    let (steps, rest) ← arrayOf step (← mark '[' text)
    return (steps, ← mark ']' rest)
  else do
    let (steps, rest) ← objectOf traceField none text
    return (← steps, rest)

def read? (text : String) : Option Trace :=
  match trace text.toList with
  | some (steps, rest) => if (skipBlanks rest).isEmpty then some steps else none
  | none => none

/-- Loads a checkpoint from the bytes of a file, if there is one. -/
def load : Option ByteArray → Except Fault Trace
  | none => .error (.checkpoint "no such file")
  | some bytes =>
      match String.fromUTF8? bytes with
      | none => .error (.checkpoint "the file is not a text")
      | some text =>
          match read? text with
          | some trace => .ok trace
          | none => .error (.checkpoint "the file holds no trace")

end ScheduleSearch.Checkpoint
