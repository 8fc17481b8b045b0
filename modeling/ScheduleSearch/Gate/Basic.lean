import ScheduleSearch.Scheduler.Step

/-!
# The gate

Host threads run at the same time; the gate lets one of them execute test code.  A host
thread calls the gate, the gate applies what the call means to the model of the execution,
and the host thread goes on only when the logical thread it carries is the running one.
Until then it is asleep on a bell of its own, which the gate rings for the thread that was
chosen.

The first fault of an execution is latched: it never changes afterwards, and every later call
but `current` is refused.  A call is a function here, the time from taking the gate's lock to
giving it back or falling asleep on it.
-/

namespace ScheduleSearch

namespace Text

/-- What stands before the number in the name of a host thread. -/
def hostOpening : List Char := "host thread ThreadId(".toList

/-- The name by which reports call a host thread. -/
def hostName (number : Nat) : String :=
  String.ofList (hostOpening ++ (Nat.toDigits 10 number ++ [')']))

end Text

/-- What one execution has behind the gate's lock. -/
structure Gate (σ : Type) where
  model : Scheduler σ
  /-- The threads that have a bell. -/
  bells : KeySet ThreadId
  /-- The first fault of the execution. -/
  failure : Option Fault
  deriving DecidableEq

/-- Which sleepers a call wakes. -/
inductive Ring where
  /-- No one. -/
  | nobody
  /-- The host thread that sleeps for this thread. -/
  | thread (thread : ThreadId)
  /-- The host thread that waits for the execution to end. -/
  | idle
  /-- All of them. -/
  | everyone
  deriving DecidableEq, Repr, Inhabited

/-- How a call leaves its host thread. -/
inductive Answer (α : Type) where
  /-- The call returned. -/
  | returned (outcome : Outcome α)
  /-- The host thread is asleep until its bell rings. -/
  | asleep

/-- What comes of a call. -/
structure Served (σ α : Type) where
  answer : Answer α
  ring : Ring
  gate : Gate σ

namespace Gate

variable {σ : Type}

def fresh (source : σ) (maxDecisions : Nat) : Gate σ where
  model := .fresh source maxDecisions
  bells := Table.empty
  failure := none

/-- The fault of a call by a host thread that carries no logical thread. -/
def stranger (host : Host) : Fault := .untrackedThread (Text.hostName host)

/-- The logical thread that the calling host thread carries. -/
def caller? (gate : Gate σ) (host : Host) : Option ThreadId :=
  gate.model.registry.threadOf? host

def latch (gate : Gate σ) (fault : Fault) : Gate σ :=
  { gate with failure := some (gate.failure.getD fault) }

/-- A call that fails the execution and reports the fault to its caller. -/
def failing {α : Type} (gate : Gate σ) (fault : Fault) : Served σ α where
  answer := .returned (.error (.fault fault))
  ring := .everyone
  gate := gate.latch fault

/-- A call that is refused because the execution has failed. -/
def refused {α : Type} (gate : Gate σ) : Served σ α where
  answer := .returned (.error (.fault .aborted))
  ring := .nobody
  gate := gate

/-- Whom a schedule wakes. -/
def ringFor (gate : Gate σ) : Schedule → Ring
  | .resume thread => if gate.bells.contains thread then .thread thread else .nobody
  | .quiescent => .idle
  | .goOn => .nobody

/-- What a host thread that waits for the turn of `thread` finds when it looks. -/
def awaitTurn (gate : Gate σ) (thread : ThreadId) : Answer Unit :=
  if !gate.bells.contains thread then .returned (.error (Scheduler.untracked thread))
  else if gate.failure.isSome then .returned (.error (.fault .aborted))
  else if gate.model.threads.isRunning thread then .returned (.ok ())
  else .asleep

/-- What the host thread that waits for the end of the execution finds when it looks. -/
def awaitEnd (gate : Gate σ) : Answer Unit :=
  match gate.failure with
  | some fault => .returned (.error (.fault fault))
  | none => if gate.model.isQuiescent then .returned (.ok ()) else .asleep

/-- Serves a call of a tracked host thread in an execution that has not failed. -/
def serve {α : Type} (gate : Gate σ) (host : Host) (effect : ThreadId → Served σ α) :
    Served σ α :=
  if gate.failure.isSome then gate.refused
  else
    match gate.caller? host with
    | some me => effect me
    | none => gate.failing (stranger host)

/-- Ends a call according to what it did to the model: a fault fails the execution, and a
broken assumption is passed on to the caller. -/
def conclude {α β : Type} (gate : Gate σ) (effect : Outcome α × Scheduler σ)
    (succeed : α → Gate σ → Served σ β) : Served σ β :=
  let after := { gate with model := effect.2 }
  match effect.1 with
  | .ok value => succeed value after
  | .error (.fault fault) => after.failing fault
  | .error (.violation violation) =>
      { answer := .returned (.error (.violation violation)), ring := .nobody, gate := after }

/-- A call that returns a value and wakes nobody. -/
def returning {α : Type} (value : α) (gate : Gate σ) : Served σ α where
  answer := .returned (.ok value)
  ring := .nobody
  gate := gate

/-- The calling host thread carries the root from now on. -/
def begin (gate : Gate σ) (host : Host) : Served σ ThreadId :=
  gate.conclude (gate.model.begin host) fun first begun =>
    returning first { begun with bells := begun.bells.add first }

/-- The thread of the caller announces a child. -/
def announce (gate : Gate σ) (host : Host) : Served σ ThreadId :=
  gate.serve host fun me =>
    gate.conclude (gate.model.ifLive me (gate.model.announce me)) fun child announced =>
      returning child { announced with bells := announced.bells.add child }

/-- The calling host thread starts to carry `thread`, and waits for its turn. -/
def started (gate : Gate σ) (host : Host) (thread : ThreadId) [DecisionSource σ] :
    Served σ Unit :=
  if gate.failure.isSome then gate.refused
  else
    gate.conclude (gate.model.step thread (.bind host)) fun _ bound =>
      { answer := bound.awaitTurn thread, ring := .nobody, gate := bound }

/-- The thread of the caller reaches its exit.  The call never waits. -/
def exit (gate : Gate σ) (host : Host) [DecisionSource σ] : Served σ Unit :=
  gate.serve host fun me =>
    let silent := { gate with bells := gate.bells.erase me }
    silent.conclude (silent.model.ifLive me (silent.model.exit me)) fun schedule after =>
      { answer := .returned (.ok ()), ring := after.ringFor schedule, gate := after }

/-- The thread of the caller does something and waits for its turn. -/
def act (gate : Gate σ) (host : Host) (action : Action) [DecisionSource σ] : Served σ Unit :=
  gate.serve host fun me =>
    gate.conclude (gate.model.ifLive me (gate.model.perform me action)) fun schedule after =>
      { answer := after.awaitTurn me, ring := after.ringFor schedule, gate := after }

/-- The thread of the caller reads its interrupt flag and clears it if asked to. -/
def readInterrupt (gate : Gate σ) (host : Host) (clear : Bool) : Served σ Bool :=
  gate.serve host fun me =>
    let (isSet, after) := gate.model.readInterrupt me clear
    gate.conclude (gate.model.ifLive me (.ok isSet, after)) returning

/-- The thread that the caller carries.  This is answered even after a failure. -/
def current (gate : Gate σ) (host : Host) : Served σ ThreadId :=
  match gate.caller? host with
  | some me => returning me gate
  | none => gate.failing (stranger host)

/-- Fails the execution. -/
def abort (gate : Gate σ) (fault : Fault) : Served σ Unit where
  answer := .returned (.ok ())
  ring := .everyone
  gate := gate.latch fault

/-- Ends a fault that is not for the caller, who waits for the end of the execution. -/
def finishing (served : Served σ Unit) : Served σ Unit :=
  match served.answer with
  | .returned (.error (.violation _)) => served
  | _ => { served with answer := served.gate.awaitEnd }

/-- The thread of the caller, the root, reaches its exit, and the caller waits for the end of
the execution. -/
def finish (gate : Gate σ) (host : Host) [DecisionSource σ] : Served σ Unit :=
  if gate.failure.isSome then
    { answer := gate.awaitEnd, ring := .nobody, gate := gate }
  else finishing (gate.exit host)

end Gate

end ScheduleSearch
