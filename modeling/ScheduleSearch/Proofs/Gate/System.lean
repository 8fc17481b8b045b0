import Mathlib.Logic.Function.Basic
import ScheduleSearch.Proofs.Gate.Calls

/-!
# Host threads at the gate

Host threads run at the same time and take the gate's lock one after the other.  A `GateSystem`
is the gate together with what each host thread is doing.  It changes by incidents: a host thread
is started for a thread that was announced, it calls the gate, it wakes up in a call in which it
fell asleep, rung for or not, and it takes the lock again to look whether it may go on.  Which
incidents may follow each other is left to a discipline, so that the same steps serve for host
threads that keep to the protocol and for those that do not.
-/

namespace ScheduleSearch

/-- What a host thread is doing. -/
inductive Standing where
  /-- It was not started for any thread. -/
  | unborn
  /-- It was started for `thread` and has not called yet. -/
  | born (thread : ThreadId)
  /-- Its last call returned, and it executes test code. -/
  | executing
  /-- It sleeps in a call, and its bell has been rung since it fell asleep, or not. -/
  | asleep (awaited : Awaited) (rung : Bool)
  /-- It woke up in a call and is going to look again. -/
  | awake (awaited : Awaited)
  /-- The thread that it carried has reached its exit. -/
  | gone
  /-- Its last call failed. -/
  | failed
  deriving DecidableEq

namespace Standing

/-- Whether the host thread is inside a call. -/
def isInside : Standing → Bool
  | asleep .. | awake _ => true
  | _ => false

/-- Whether the host thread was started for a thread and has not called yet. -/
def isBorn : Standing → Bool
  | born _ => true
  | _ => false

theorem ne_born {standing : Standing} (called : standing.isBorn = false) (thread : ThreadId) :
    standing ≠ .born thread := by
  rintro rfl
  cases called

/-- Whether the host thread sleeps on the bell of `thread`, which has not been rung. -/
def sleepsFor (thread : ThreadId) : Standing → Bool
  | asleep (.turn awaited) false => awaited.same thread
  | _ => false

/-- Whether the host thread sleeps until the end of the execution, which nobody has told it. -/
def sleepsToEnd : Standing → Bool
  | asleep .quiescence false => true
  | _ => false

/-- Whether the host thread hears the bells that are rung when the execution fails. -/
def hearsFailure (bells : KeySet ThreadId) : Standing → Bool
  | asleep (.turn awaited) _ => bells.contains awaited
  | asleep .quiescence _ => true
  | _ => false

def rung : Standing → Standing
  | asleep awaited _ => asleep awaited true
  | standing => standing

end Standing

/-- What becomes of a host thread whose wait is over. -/
def Awaited.standing : Awaited → Standing
  | turn _ => .executing
  | quiescence => .gone

/-- What becomes of a host thread whose call succeeds. -/
def GateCall.standing : GateCall → Standing
  | exit | finish => .gone
  | _ => .executing

/-- What a host thread does after an answer. -/
def Answer.standing {α : Type} (succeeded : Standing) (awaited : Awaited) : Answer α → Standing
  | .returned (.ok _) => succeeded
  | .returned (.error _) => .failed
  | .asleep => .asleep awaited false

/-- What the host thread waits for that falls asleep in a call.  If it carries no thread it falls
asleep in no other calls than the first two. -/
def Gate.awaited {σ : Type} (gate : Gate σ) (host : Host) : GateCall → Awaited
  | .finish => .quiescence
  | .started thread => .turn thread
  | _ => .turn ((gate.caller? host).getD .root)

/-- How a ring changes what the host threads are doing.  Of several that sleep on the same bell
one is rung for. -/
inductive Rings (bells : KeySet ThreadId) (hosts : Host → Standing) :
    Ring → (Host → Standing) → Prop
  | nobody : Rings bells hosts .nobody hosts
  | unheard {thread : ThreadId} (silent : ∀ host, (hosts host).sleepsFor thread = false) :
      Rings bells hosts (.thread thread) hosts
  | heard {thread : ThreadId} (host : Host) (sleeps : (hosts host).sleepsFor thread = true) :
      Rings bells hosts (.thread thread) (Function.update hosts host (hosts host).rung)
  | idle :
      Rings bells hosts .idle fun host =>
        if (hosts host).sleepsToEnd then (hosts host).rung else hosts host
  | everyone :
      Rings bells hosts .everyone fun host =>
        if (hosts host).hearsFailure bells then (hosts host).rung else hosts host

/-- The gate and what the host threads are doing. -/
structure GateSystem (σ : Type) where
  gate : Gate σ
  hosts : Host → Standing
  /-- The announced threads for which no host thread was started yet. -/
  coming : KeySet ThreadId

/-- Something that happens to a system of host threads. -/
inductive Incident where
  /-- A host thread is started for an announced thread. -/
  | start (host : Host) (thread : ThreadId)
  /-- A host thread calls the gate, which answers. -/
  | call (host : Host) (call : GateCall) (answer : Answer GateReply)
  /-- A host thread wakes up, whether or not its bell was rung. -/
  | wake (host : Host)
  /-- A host thread that woke up finds out whether its wait is over. -/
  | look (host : Host) (awaited : Awaited) (answer : Answer Unit)

namespace GateSystem

variable {σ : Type}

/-- The root is carried by `host`, which executes test code, and there is no other thread. -/
def begun (source : σ) (maxDecisions : Nat) (host : Host) : GateSystem σ where
  gate := ((Gate.fresh source maxDecisions).begin host).gate
  hosts := Function.update (fun _ => .unborn) host .executing
  coming := Table.empty

/-- The threads for which a host thread is to be started after a call. -/
def awaitedBirths (coming : KeySet ThreadId) : Answer GateReply → KeySet ThreadId
  | .returned (.ok (.thread child)) => coming.add child
  | _ => coming

/-- A host thread does something else from now on. -/
def repost (system : GateSystem σ) (host : Host) (standing : Standing) : GateSystem σ :=
  { system with hosts := Function.update system.hosts host standing }

@[simp] theorem hosts_repost_self (system : GateSystem σ) (host : Host) (standing : Standing) :
    (system.repost host standing).hosts host = standing := by
  simp only [repost, Function.update_self]

theorem hosts_repost_of_ne (system : GateSystem σ) {host other : Host} (standing : Standing)
    (different : other ≠ host) :
    (system.repost host standing).hosts other = system.hosts other := by
  simp only [repost, Function.update_of_ne different]

/-- The system after a call whose ring left the host threads as they are in `hosts`. -/
def called [DecisionSource σ] (system : GateSystem σ) (host : Host) (call : GateCall)
    (hosts : Host → Standing) : GateSystem σ :=
  let served := system.gate.call host call
  { gate := served.gate
    hosts := Function.update hosts host
      (served.answer.standing call.standing (system.gate.awaited host call))
    coming :=
      if call = .announce then awaitedBirths system.coming served.answer else system.coming }

/-- What an incident does. -/
inductive Step [DecisionSource σ] (before : GateSystem σ) : Incident → GateSystem σ → Prop
  | start {host : Host} {thread : ThreadId} (unborn : before.hosts host = .unborn)
      (coming : before.coming.contains thread = true) :
      Step before (.start host thread)
        { before.repost host (.born thread) with coming := before.coming.erase thread }
  | call {host : Host} {call : GateCall} {hosts : Host → Standing}
      (outside : (before.hosts host).isInside = false)
      (rings : Rings (before.gate.call host call).gate.bells before.hosts
        (before.gate.call host call).ring hosts) :
      Step before (.call host call (before.gate.call host call).answer)
        (before.called host call hosts)
  | wake {host : Host} {awaited : Awaited} {rung : Bool}
      (asleep : before.hosts host = .asleep awaited rung) :
      Step before (.wake host) (before.repost host (.awake awaited))
  | look {host : Host} {awaited : Awaited} (awake : before.hosts host = .awake awaited) :
      Step before (.look host awaited (before.gate.look awaited))
        (before.repost host ((before.gate.look awaited).standing awaited.standing awaited))

/-- Incidents follow each other, each of them as the discipline allows. -/
inductive Run [DecisionSource σ] (allowed : GateSystem σ → Incident → Prop)
    (first : GateSystem σ) : List Incident → GateSystem σ → Prop
  | refl : Run allowed first [] first
  | step {incidents : List Incident} {system after : GateSystem σ} {incident : Incident}
      (run : Run allowed first incidents system) (stepped : Step system incident after)
      (possible : allowed system incident) :
      Run allowed first (incidents ++ [incident]) after

/-- Anything may happen. -/
def anything (_ : GateSystem σ) (_ : Incident) : Prop := True

variable [DecisionSource σ] {before after system : GateSystem σ} {incident : Incident}

private theorem Step.gate_cases (stepped : Step before incident after) :
    after.gate = before.gate ∨
      ∃ host call, incident = .call host call (before.gate.call host call).answer ∧
        after.gate = (before.gate.call host call).gate := by
  cases stepped with
  | start unborn coming => exact Or.inl rfl
  | call outside rings => exact Or.inr ⟨_, _, rfl, rfl⟩
  | wake asleep => exact Or.inl rfl
  | look awake => exact Or.inl rfl

/-- No incident changes a failed gate. -/
theorem Step.gate_of_failed {fault : Fault} (failed : before.gate.failure = some fault)
    (stepped : Step before incident after) : after.gate = before.gate := by
  rcases stepped.gate_cases with same | ⟨host, call, -, called⟩
  · exact same
  · exact called.trans (Gate.gate_call_of_failed failed host call)

/-- An execution that has not failed after an incident had not failed before it. -/
theorem Step.unfailed (stepped : Step before incident after)
    (unfailed : after.gate.failure = none) : before.gate.failure = none := by
  cases failed : before.gate.failure with
  | none => rfl
  | some fault =>
      rw [stepped.gate_of_failed failed, failed] at unfailed
      cases unfailed

private theorem Step.belled (belled : before.gate.Belled) (stepped : Step before incident after) :
    after.gate.Belled := by
  rcases stepped.gate_cases with same | ⟨host, call, -, called⟩
  · rw [same]
    exact belled
  · rw [called]
    exact (Gate.kept_call belled host call).belled

theorem Step.known (belled : before.gate.Belled) (stepped : Step before incident after)
    {thread : ThreadId} (known : before.gate.model.Known thread) :
    after.gate.model.Known thread := by
  rcases stepped.gate_cases with same | ⟨host, call, -, called⟩
  · rw [same]
    exact known
  · rw [called]
    exact (Gate.kept_call belled host call).known thread known

/-- No run changes a failed gate. -/
theorem Run.gate_of_failed {allowed : GateSystem σ → Incident → Prop} {first : GateSystem σ}
    {incidents : List Incident} {fault : Fault} (failed : first.gate.failure = some fault)
    (run : Run allowed first incidents system) : system.gate = first.gate := by
  induction run with
  | refl => rfl
  | step run stepped possible inductionHypothesis =>
      rw [← inductionHypothesis] at failed ⊢
      exact stepped.gate_of_failed failed

theorem Run.belled {allowed : GateSystem σ → Incident → Prop} {source : σ} {maxDecisions : Nat}
    {host : Host} {incidents : List Incident}
    (run : Run allowed (begun source maxDecisions host) incidents system) :
    system.gate.Belled := by
  induction run with
  | refl => exact Gate.belled_begun source maxDecisions host
  | step run stepped possible inductionHypothesis => exact stepped.belled inductionHypothesis

end GateSystem

end ScheduleSearch
