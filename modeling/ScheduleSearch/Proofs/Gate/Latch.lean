import ScheduleSearch.Decision.Script
import ScheduleSearch.Proofs.Gate.System

/-!
# The first failure

Whatever host threads call the gate, tracked or not and in whatever order, a call that fails
leaves a failure recorded, and the failure that is recorded first stays: from then on the gate
does not change any more, its model and the source of decisions included, events are refused as
aborted, and whoever waits for the end is told the recorded fault.  An execution passes only if
nothing failed and every thread that was ever announced has reached its exit.
-/

namespace ScheduleSearch

namespace Incident

/-- A call ends with a fault. -/
def Faults (fault : Fault) : Incident → Prop
  | call _ _ answer => answer = .returned (.error (.fault fault))
  | look _ _ answer => answer = .returned (.error (.fault fault))
  | _ => False

/-- If a call ends, it ends as it has to in an execution that failed with `fault`. -/
def Refused (fault : Fault) : Incident → Prop
  | call _ made answer =>
      (made.isEvent = true → made ≠ .current → answer = .returned (.error (.fault .aborted))) ∧
        (made = .finish → answer = .returned (.error (.fault fault)))
  | look _ (.turn _) answer => answer = .returned (.error (.fault .aborted))
  | look _ .quiescence answer => answer = .returned (.error (.fault fault))
  | _ => True

/-- A host thread is told that the execution has ended well. -/
def Passes : Incident → Prop
  | call _ made answer => made = .finish ∧ answer = .returned (.ok .done)
  | look _ awaited answer => awaited = .quiescence ∧ answer = .returned (.ok ())
  | _ => False

end Incident

namespace Gate

variable {σ : Type} {gate : Gate σ}

private theorem look_of_failed {fault : Fault} (failed : gate.failure = some fault) (host : Host)
    (awaited : Awaited) :
    (Incident.look host awaited (gate.look awaited)).Refused fault := by
  cases awaited with
  | turn thread =>
      change gate.look _ = _
      rw [look, failed]
      rfl
  | quiescence => exact awaitEnd_of_failed failed

private theorem failed_of_look {awaited : Awaited} {fault : Fault}
    (found : gate.look awaited = .returned (.error (.fault fault))) :
    gate.failure = some (gate.failure.getD fault) := by
  cases failed : gate.failure with
  | some recorded => rfl
  | none =>
      exfalso
      cases awaited with
      | turn thread =>
          rw [look, failed] at found
          dsimp only [Option.isSome_none] at found
          rw [if_neg Bool.false_ne_true] at found
          split at found <;> cases found
      | quiescence =>
          rw [look, awaitEnd, failed] at found
          dsimp only at found
          split at found <;> cases found

private theorem awaitEnd_eq_ok (passed : gate.awaitEnd = .returned (.ok ())) :
    gate.failure = none ∧ gate.model.isQuiescent = true := by
  rw [awaitEnd] at passed
  split at passed
  next => cases passed
  next unfailed =>
    split at passed
    next quiescent => exact ⟨unfailed, quiescent⟩
    next => cases passed

private theorem map_eq_ok {α β : Type} {change : α → β} {answer : Answer α} {reply : β}
    (returned : answer.map change = .returned (.ok reply)) :
    ∃ value, answer = .returned (.ok value) ∧ change value = reply := by
  match answer with
  | .asleep => cases returned
  | .returned (.ok value) =>
      cases returned
      exact ⟨value, rfl, rfl⟩
  | .returned (.error halt) => cases returned

variable [DecisionSource σ]

private theorem passed_of_finish {host : Host}
    (passed : (gate.finish host).answer = .returned (.ok ())) :
    (gate.finish host).gate.failure = none ∧
      (gate.finish host).gate.model.isQuiescent = true := by
  revert passed
  rw [finish]
  split
  · exact awaitEnd_eq_ok
  · rw [finishing]
    split
    next broken =>
      intro passed
      rw [broken] at passed
      cases passed
    next => exact awaitEnd_eq_ok

omit [DecisionSource σ] in
private theorem known_of_announce {host : Host} {child : ThreadId}
    (announced : (gate.announce host).answer = .returned (.ok child)) :
    (gate.announce host).gate.model.Known child := by
  revert announced
  rw [announce, serve]
  split
  · intro refused
    cases refused
  · split
    next me carried =>
      by_cases live : gate.model.isLive me = true
      · rw [Scheduler.ifLive, if_pos live, Scheduler.announce_eq]
        intro announced
        cases announced
        exact (Scheduler.known_announce gate.model me _).2 (Or.inl rfl)
      · rw [Scheduler.ifLive, if_neg live]
        intro refused
        cases refused
    next =>
      intro refused
      cases refused

end Gate

namespace GateSystem

variable {σ : Type} [DecisionSource σ] {before after system : GateSystem σ} {incident : Incident}
  {fault : Fault}

/-- The fault that a call ends with is recorded, unless another one was before. -/
theorem Step.recorded (belled : before.gate.Belled) (stepped : Step before incident after)
    (faults : incident.Faults fault) :
    after.gate.failure = some (before.gate.failure.getD fault) := by
  cases stepped with
  | start unborn coming => cases faults
  | @call host call hosts outside rings =>
      exact (Gate.kept_call belled host call).recorded fault faults
  | wake asleep => cases faults
  | look awake => exact Gate.failed_of_look faults

private theorem Step.refused (failed : before.gate.failure = some fault)
    (stepped : Step before incident after) : incident.Refused fault := by
  cases stepped with
  | start unborn coming => trivial
  | @call host call hosts outside rings =>
      constructor
      · exact Gate.answer_call_of_failed failed host
      · rintro rfl
        exact Gate.answer_finish_of_failed failed host
  | wake asleep => trivial
  | @look host awaited awake => exact Gate.look_of_failed failed host awaited

private theorem Step.passed (stepped : Step before incident after) (passes : incident.Passes) :
    after.gate.failure = none ∧ after.gate.model.isQuiescent = true := by
  cases stepped with
  | start unborn coming => cases passes
  | @call host call hosts outside rings =>
      obtain ⟨rfl, passed⟩ := passes
      obtain ⟨value, found, -⟩ := Gate.map_eq_ok passed
      exact Gate.passed_of_finish found
  | wake asleep => cases passes
  | look awake =>
      obtain ⟨rfl, passed⟩ := passes
      exact Gate.awaitEnd_eq_ok passed

/-- Every thread that was announced, like the root, is live or has reached its exit. -/
theorem Run.known {allowed : GateSystem σ → Incident → Prop} {source : σ} {maxDecisions : Nat}
    {host : Host} {incidents : List Incident}
    (run : Run allowed (begun source maxDecisions host) incidents system) :
    system.gate.model.Known .root ∧ ∀ announcer child,
      .call announcer .announce (.returned (.ok (.thread child))) ∈ incidents →
        system.gate.model.Known child := by
  induction run with
  | refl =>
      constructor
      · apply Or.inl
        exact Scheduler.isLive_iff.2 ⟨.running, Scheduler.state?_begun source maxDecisions host _⟩
      · intro announcer child none
        cases none
  | @step incidents system after incident run stepped possible inductionHypothesis =>
      constructor
      · exact stepped.known run.belled inductionHypothesis.1
      · intro announcer child member
        rcases List.mem_append.1 member with earlier | last
        · exact stepped.known run.belled (inductionHypothesis.2 announcer child earlier)
        · obtain rfl := List.mem_singleton.1 last
          generalize answered : Answer.returned (Except.ok (GateReply.thread child)) = answer
            at stepped
          cases stepped with
          | call outside rings =>
              obtain ⟨value, found, same⟩ := Gate.map_eq_ok answered.symm
              cases same
              exact Gate.known_of_announce found

/-- In every execution, whichever host threads call the gate in whatever order: a call that
returns a fault leaves a failure recorded, its own fault or an older one; once a failure is
recorded the gate never changes again, events end as aborted, and the end of the execution is
answered with the recorded fault; and the end is answered with success only if no failure is
recorded and the root and every announced thread have reached their exits. -/
theorem failures_latched (source : σ) (maxDecisions : Nat) (host : Host)
    {incidents : List Incident}
    (run : Run anything (begun source maxDecisions host) incidents system) :
    (∀ incident after fault, Step system incident after → incident.Faults fault →
      after.gate.failure = some (system.gate.failure.getD fault)) ∧
    (∀ fault more later, system.gate.failure = some fault → Run anything system more later →
      later.gate = system.gate ∧
        ∀ incident after, Step later incident after → incident.Refused fault) ∧
    ∀ incident after, Step system incident after → incident.Passes →
      after.gate.failure = none ∧ after.gate.model.hasExited .root = true ∧
        ∀ announcer child,
          .call announcer .announce (.returned (.ok (.thread child))) ∈ incidents →
            after.gate.model.hasExited child = true := by
  refine ⟨?_, ?_, ?_⟩
  · intro incident after fault stepped faults
    exact stepped.recorded run.belled faults
  · intro fault more later failed continued
    have unchanged := continued.gate_of_failed failed
    refine ⟨unchanged, ?_⟩
    intro incident after stepped
    apply stepped.refused
    rw [unchanged]
    exact failed
  · intro incident after stepped passes
    obtain ⟨unfailed, quiescent⟩ := stepped.passed passes
    have exited : ∀ thread, system.gate.model.Known thread →
        after.gate.model.hasExited thread = true := by
      intro thread known
      rcases stepped.known run.belled known with live | exited
      · obtain ⟨state, found⟩ := Scheduler.isLive_iff.1 live
        rw [RunStates.isEmpty_iff.1 quiescent thread] at found
        cases found
      · exact exited
    refine ⟨unfailed, exited _ run.known.1, ?_⟩
    intro announcer child announced
    exact exited child (run.known.2 announcer child announced)

/-- A host thread that nobody knows asks for its thread, and the root, which goes on, is refused
and told why; and in another execution the root waits for its child, and both pass. -/
theorem failures_latched_in_two_runs :
    (∃ incidents system after, Run anything (begun (Script.ofAnswers []) 4 0) incidents system ∧
      Step system
        (.call 9 .current (.returned (.error (.fault (Gate.stranger 9))))) after ∧
      after.gate.failure = some (Gate.stranger 9) ∧
      ∃ refused last, Step after (.call 0 .announce refused) last ∧
        refused = .returned (.error (.fault .aborted))) ∧
    ∃ incidents system after, Run anything (begun (Script.ofAnswers []) 4 0) incidents system ∧
      Step system (.look 0 .quiescence (.returned (.ok ()))) after ∧
      after.gate.model.hasExited (.child .root 0) = true := by
  constructor
  · have start : Run anything (begun (Script.ofAnswers []) 4 0) [] _ := .refl
    have asked := @Step.call _ _ (begun (Script.ofAnswers []) 4 0) 9 .current _ rfl .everyone
    have recorded := (failures_latched (Script.ofAnswers []) 4 0 start).1 _ _ _ asked rfl
    have failing := start.step asked trivial
    obtain ⟨-, refused⟩ := (failures_latched (Script.ofAnswers []) 4 0 failing).2.1 _ [] _
      recorded .refl
    have aborted := refused _ _ (@Step.call _ _ _ 0 .announce _ rfl .nobody)
    exact ⟨_, _, _, start, asked, recorded, _, _, @Step.call _ _ _ 0 .announce _ rfl .nobody,
      aborted.1 rfl nofun⟩
  · have start : Run anything (begun (Script.ofAnswers []) 4 0) [] _ := .refl
    have announced := start.step (@Step.call _ _ _ 0 .announce _ rfl .nobody) trivial
    have started := announced.step (@Step.start _ _ _ 1 (.child .root 0) rfl rfl) trivial
    have asleep := started.step
      (@Step.call _ _ _ 1 (.started (.child .root 0)) _ rfl .nobody) trivial
    have waiting := asleep.step (@Step.call _ _ _ 0 .finish _ rfl (.heard 1 rfl)) trivial
    have awake := waiting.step (@Step.wake _ _ _ 1 (.turn (.child .root 0)) true rfl) trivial
    have running := awake.step (@Step.look _ _ _ 1 _ rfl) trivial
    have ended := running.step (@Step.call _ _ _ 1 .exit _ rfl .idle) trivial
    have woken := ended.step (@Step.wake _ _ _ 0 .quiescence true rfl) trivial
    obtain ⟨-, -, exits⟩ := (failures_latched (Script.ofAnswers []) 4 0 woken).2.2 _ _
      (@Step.look _ _ _ 0 .quiescence rfl) ⟨rfl, rfl⟩
    exact ⟨_, _, _, woken, @Step.look _ _ _ 0 .quiescence rfl,
      exits 0 _ List.mem_cons_self⟩

end GateSystem

end ScheduleSearch
