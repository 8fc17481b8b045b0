import ScheduleSearch.Checkpoint.Lexeme

/-!
# Values of no interest

A checkpoint may hold fields that no reader knows.  Their values are passed over, but must be
well formed.  The brackets that are open are kept in a list, so values may be nested to any
depth; each round passes over at least one character.
-/

namespace ScheduleSearch.Checkpoint

/-- A bracket that is still open. -/
inductive Bracket where
  | array
  | object
  deriving DecidableEq, Repr

def Bracket.closing : Bracket → Char
  | array => ']'
  | object => '\x7d'

/-- What is found at the start of a value. -/
inductive ValueStart where
  /-- The value is complete. -/
  | complete (rest : List Char)
  /-- A bracket was opened. -/
  | opened (bracket : Bracket) (rest : List Char)

/-- Passes over a value without brackets, or over an opening bracket. -/
def skipStart (text : List Char) : Option ValueStart :=
  match skipBlanks text with
  | [] => none
  | char :: rest =>
      if char = 'n' then (skipWord ['u', 'l', 'l'] rest).map .complete
      else if char = 't' then (skipWord ['r', 'u', 'e'] rest).map .complete
      else if char = 'f' then (skipWord ['a', 'l', 's', 'e'] rest).map .complete
      else if char = '-' then (skipNumber rest).map .complete
      else if char.isDigit then (skipNumber (char :: rest)).map .complete
      else if char = '\x22' then (skipStringBody rest).map .complete
      else if char = '[' then some (.opened .array rest)
      else if char = '\x7b' then some (.opened .object rest)
      else none

/-- Passes over the name of a member of an object and the colon after it. -/
def skipName (text : List Char) : Option (List Char) := do
  let opened ← mark '\x22' text
  let named ← skipStringBody opened
  mark ':' named

/-- Passes over what stands before a value inside a bracket. -/
def skipToValue (bracket : Bracket) (text : List Char) : Option (List Char) :=
  match bracket with
  | .array => some text
  | .object => skipName text

mutual

/-- Passes over a value and everything up to the end of the open brackets. -/
def skipValueWithin : Nat → List Bracket → List Char → Option (List Char)
  | 0, _, _ => none
  | rounds + 1, brackets, text =>
      match skipStart text with
      | none => none
      | some (.complete rest) => skipAfterWithin rounds brackets rest
      | some (.opened bracket rest) =>
          match mark bracket.closing rest with
          | some closed => skipAfterWithin rounds brackets closed
          | none =>
              match skipToValue bracket rest with
              | some value => skipValueWithin rounds (bracket :: brackets) value
              | none => none

/-- Goes on after a value that is complete. -/
def skipAfterWithin : Nat → List Bracket → List Char → Option (List Char)
  | _, [], text => some text
  | 0, _, _ => none
  | rounds + 1, bracket :: brackets, text =>
      match mark bracket.closing text with
      | some closed => skipAfterWithin rounds brackets closed
      | none =>
          match mark ',' text with
          | none => none
          | some more =>
              match skipToValue bracket more with
              | some value => skipValueWithin rounds (bracket :: brackets) value
              | none => none

end

def skipValue (text : List Char) : Option (List Char) :=
  skipValueWithin (2 * text.length + 1) [] text

end ScheduleSearch.Checkpoint
