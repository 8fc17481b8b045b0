import ScheduleSearch.Proofs.Cooperative.Steps

/-!
# Failed executions

A machine whose execution failed goes on until its strands are unwound, and no step of it makes
the execution one that did not fail.  So whatever is known of an execution that has not failed
was known before each of its steps.
-/

namespace ScheduleSearch

/-- No call clears a failure. -/
theorem Gate.failure_of_call {σ : Type} [DecisionSource σ] {gate : Gate σ} (host : Host)
    (call : GateCall) (passed : (gate.call host call).gate.failure = none) :
    gate.failure = none := by
  cases failed : gate.failure with
  | none => rfl
  | some fault =>
      rw [gate_call_of_failed failed] at passed
      exact failed.symm.trans passed

namespace Machine

variable {σ : Type} [DecisionSource σ] {machine : Machine σ} {me : ThreadId} {strand : Strand}
  {rest : List Task}

private theorem failure_before_call {α : Type} {served : Served σ α}
    {proceed : Machine σ → α → Machine σ}
    (passed : (machine.after me strand served proceed).gate.failure = none) {host : Host}
    (call : GateCall) (calls : served.gate = (machine.gate.call host call).gate)
    (kept : ∀ machine value, (proceed machine value).gate = machine.gate) :
    machine.gate.failure = none := by
  have called := failure_of_after kept passed
  rw [calls] at called
  exact Gate.failure_of_call host call called

private theorem failure_before_begin {operation : Operation}
    (passed : (machine.begin me strand rest operation).gate.failure = none) :
    machine.gate.failure = none := by
  match operation with
  | .yield _ | .park | .report _ | .load _ | .store _ | .lock .. | .unlock _ | .wait ..
  | .notify _ | .notifyAll _ => exact passed
  | .current => exact failure_before_call passed .current rfl fun _ _ => rfl
  | .interrupted clear =>
      exact failure_before_call passed (.readInterrupt clear) rfl fun _ _ => rfl
  | .spawn key site => exact failure_before_call passed .announce rfl fun _ _ => rfl
  | .join _ | .joinTimed _ | .finished _ | .unpark _ | .interrupt _ | .get _ | .set _ =>
      unfold Machine.begin at passed
      dsimp only at passed
      split at passed <;> exact passed
  | .abort fault => cases passed

private theorem failure_before_execute {instruction : Instruction}
    (passed : (machine.execute me strand rest instruction).gate.failure = none) :
    machine.gate.failure = none := by
  match instruction with
  | .const _ | .add _ | .branch .. | .loop .. | .times .. => exact passed
  | .check expected text =>
      unfold Machine.execute at passed
      dsimp only at passed
      split at passed
      · exact passed
      · exact failure_before_panic passed
  | .panic payload => exact failure_before_panic passed
  | .use operation => exact failure_before_begin passed

private theorem failure_before_carryOut {task : Task}
    (passed : (machine.carryOut me strand rest task).gate.failure = none) :
    machine.gate.failure = none := by
  match task with
  | .run instruction => exact failure_before_execute passed
  | .again 0 _ | .again (_ + 1) _ | .keep .. | .log .. => exact passed
  | .round condition body rounds =>
      unfold Machine.carryOut at passed
      dsimp only at passed
      split at passed
      · exact passed
      · split at passed
        · exact passed
        · exact failure_before_panic passed
  | .act action => exact failure_before_call passed (.act action) rfl fun _ _ => rfl
  | .tryLock mutex site =>
      unfold Machine.carryOut Machine.tryLock at passed
      dsimp only at passed
      split at passed
      · cases failure_before_panic passed
      · exact passed
  | .drop mutex =>
      have freed : (machine.setTaken false mutex).gate.failure = none :=
        failure_before_call passed (.act (.leave (lockOf mutex))) rfl fun _ _ => rfl
      exact freed
  | .beginWait mutex timed operation =>
      refine failure_before_call passed (.readInterrupt true) rfl ?_
      intro called isSet
      cases isSet <;> rfl
  | .endWait operation =>
      exact failure_before_call passed (.readInterrupt true) rfl fun _ _ => rfl
  | .relock _ | .takeResult .. | .takeTimed .. =>
      unfold Machine.carryOut at passed
      dsimp only at passed
      split at passed <;> exact passed

private theorem failure_before_conclude
    (passed : (machine.conclude me strand).gate.failure = none) :
    machine.gate.failure = none := by
  unfold Machine.conclude at passed
  dsimp only at passed
  split at passed
  · exact Gate.failure_of_call strand.host .finish passed
  · exact Gate.failure_of_call strand.host .exit passed

/-- No step clears a failure. -/
theorem failure_before_step (passed : machine.step.gate.failure = none) :
    machine.gate.failure = none := by
  unfold Machine.step at passed
  split at passed
  next => exact passed
  next me _ =>
    split at passed
    next => exact passed
    next strand _ =>
      dsimp only at passed
      split at passed
      next => exact passed
      next => exact failure_before_call passed (.started me) rfl fun _ _ => rfl
      next =>
        refine failure_of_after ?_ passed
        exact fun _ _ => rfl
      next =>
        split at passed
        · exact failure_before_carryOut passed
        · exact failure_before_carryOut passed
        · exact failure_before_conclude passed

end Machine

end ScheduleSearch
