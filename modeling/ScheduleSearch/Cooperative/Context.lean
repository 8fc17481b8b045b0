import ScheduleSearch.Fault

/-!
# Contexts and panics

Test code reaches the execution it is part of through a context that its host thread has
entered.  Contexts nest: leaving one makes the one before it current again.  Outside of all
contexts the cooperative primitives panic.

A panic carries a payload.  The payload of a thread that unwinds because the execution failed
is told apart from that of a test that panics by itself.
-/

namespace ScheduleSearch

/-- What a panic carries. -/
inductive Payload where
  /-- A text fixed in the test. -/
  | literal (content : String)
  /-- A text made by the test. -/
  | text (content : String)
  /-- The fault for which a thread unwinds. -/
  | aborted (fault : Fault)
  /-- Anything else. -/
  | other
  deriving DecidableEq, Repr, Inhabited

namespace Payload

/-- The text that is reported of a panic. -/
def message : Payload → String
  | literal content => content
  | text content => content
  | aborted fault => fault.message
  | other => "non-string panic payload"

/-- Whether the thread unwinds because the execution failed. -/
def isAbort : Payload → Bool
  | aborted _ => true
  | _ => false

end Payload

/-- The context that a host thread is in, if any. -/
structure Surroundings (α : Type) where
  current : Option α
  deriving DecidableEq, Repr, Inhabited

namespace Surroundings

variable {α : Type}

/-- A host thread that entered no context. -/
def outside : Surroundings α := ⟨none⟩

/-- Enters a context.  What was current before is kept for leaving it. -/
def enter (surroundings : Surroundings α) (context : α) : Surroundings α × Surroundings α :=
  (surroundings, ⟨some context⟩)

/-- Leaves a context, given what was current before it was entered. -/
def leave (before : Surroundings α) : Surroundings α := before

/-- The panic of a primitive that is used outside of all contexts. -/
def outsidePanic : Payload :=
  .literal "krepis-interleave primitive used outside of a model run"

/-- The current context, which a primitive needs. -/
def require (surroundings : Surroundings α) : Except Payload α :=
  match surroundings.current with
  | some context => .ok context
  | none => .error outsidePanic

end Surroundings

end ScheduleSearch
