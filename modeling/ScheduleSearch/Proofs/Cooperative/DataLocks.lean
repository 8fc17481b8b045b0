import ScheduleSearch.Proofs.Cooperative.LocksInStep

/-!
# Data locks

In the execution of a cooperative program no data lock contends.  Whoever holds one owns the
monitor, so a thread that has entered the monitor finds the data lock free unless it holds the
lock itself, and a thread that comes back from a wait always does.
-/

namespace ScheduleSearch.Machine

variable {σ : Type} [DecisionSource σ] {machine : Machine σ} {me : ThreadId} {strand : Strand}
  {mutex : Nat}

/-- The data lock of the mutex does not contend: it is taken if and only if some thread holds it,
which owns the monitor and is the only one; a thread that has entered the monitor finds it taken
only if it has a guard itself; and a thread that comes back from a wait finds it free. -/
structure Uncontended (machine : Machine σ) (mutex : Nat) : Prop where
  taken_iff : machine.isTaken mutex = true ↔
    ∃ thread strand, machine.strands.get? thread = some strand ∧ strand.Holds mutex
  owner : ∀ thread strand, machine.strands.get? thread = some strand → strand.Holds mutex →
    machine.gate.model.monitors.Owns thread (lockOf mutex)
  unique : ∀ first second firstStrand secondStrand,
    machine.strands.get? first = some firstStrand → firstStrand.Holds mutex →
      machine.strands.get? second = some secondStrand → secondStrand.Holds mutex →
        first.same second = true
  tried : ∀ me strand site rest, machine.turn = some me → machine.strands.get? me = some strand →
    strand.phase = .active → strand.code = .tryLock mutex site :: rest →
      (machine.isTaken mutex = true ↔ mutex ∈ strand.guards) ∧
      (mutex ∈ strand.guards → ∃ actor, machine.gate.caller? strand.host = some actor ∧
        machine.step.gate.failure = some (lockedTwice mutex site actor.name)) ∧
      (mutex ∉ strand.guards → machine.step.gate.failure = none ∧
        machine.step.isTaken mutex = true)
  retaken : ∀ me strand rest, machine.turn = some me → machine.strands.get? me = some strand →
    strand.phase = .active → strand.code = .relock mutex :: rest →
      machine.isTaken mutex = false ∧ machine.step.turn = some me ∧
        machine.step.isTaken mutex = true

/-- A thread that tries a data lock fails only because of itself. -/
theorem InStep.tried (inStep : machine.InStep) (tied : machine.Tied)
    (within : mutex < machine.cells.size) (turn : machine.turn = some me)
    (found : machine.strands.get? me = some strand) (active : strand.phase = .active)
    {site : Site} {rest : List Task} (code : strand.code = .tryLock mutex site :: rest) :
    (machine.isTaken mutex = true ↔ mutex ∈ strand.guards) ∧
      (mutex ∈ strand.guards → ∃ actor, machine.gate.caller? strand.host = some actor ∧
        machine.step.gate.failure = some (lockedTwice mutex site actor.name)) ∧
      (mutex ∉ strand.guards → machine.step.gate.failure = none ∧
        machine.step.isTaken mutex = true) := by
  have goesOn := (Strand.underway_of_active active).2
  have entered : 0 < strand.entered mutex := by
    rw [Strand.entered, code]
    simp [Task.tries]
  have outside : strand.isInsideWait mutex = false := by
    have planned := (tied.seated me strand found).planned
    rw [Strand.isInsideWait]
    rw [code] at planned ⊢
    cases planned with
    | opening opening =>
        cases opening with
        | quiet quiet => cases (quiet_cons.1 quiet).1
    | tryLock quiet => exact any_retakes_of_quiet quiet mutex
  have taken_iff : machine.isTaken mutex = true ↔ mutex ∈ strand.guards := by
    constructor
    · intro taken
      have owns := inStep.owns_of_entered tied (tied.turn me turn) found goesOn entered
      exact (inStep.holds_of_owns tied within found owns taken).1
    · intro guarded
      exact (inStep.taken mutex within).2 ⟨me, strand, found, guarded, outside⟩
  have stepped := step_of_task turn found active code
  refine ⟨taken_iff, ?_, ?_⟩
  · intro guarded
    obtain ⟨actor, carries, -⟩ := (tied.seated me strand found).manned (Or.inl active)
    refine ⟨actor, carries, ?_⟩
    have failed : (machine.gate.abort (lockedTwice mutex site actor.name)).gate.failure =
        some (lockedTwice mutex site actor.name) := by
      rw [Gate.abort, Gate.latch, tied.ready.unfailed]
      rfl
    rw [stepped, carryOut, tryLock, if_pos (taken_iff.2 guarded),
      Gate.current_of_caller carries]
    exact (congrArg Gate.failure (gate_unwind _ me strand)).trans failed
  · intro unguarded
    rw [stepped, carryOut, tryLock, if_neg (mt taken_iff.1 unguarded)]
    exact ⟨tied.ready.unfailed, (isTaken_setTaken machine true mutex within).trans (if_pos rfl)⟩

/-- A thread that comes back from a wait finds the data lock free. -/
theorem InStep.retaken (inStep : machine.InStep) (tied : machine.Tied)
    (within : mutex < machine.cells.size) (turn : machine.turn = some me)
    (found : machine.strands.get? me = some strand) (active : strand.phase = .active)
    {rest : List Task} (code : strand.code = .relock mutex :: rest) :
    machine.isTaken mutex = false ∧ machine.step.turn = some me ∧
      machine.step.isTaken mutex = true := by
  have goesOn := (Strand.underway_of_active active).2
  have guarded : mutex ∈ strand.guards := by
    have planned := (tied.seated me strand found).planned
    rw [code] at planned
    cases planned with
    | opening opening =>
        cases opening with
        | quiet quiet => cases (quiet_cons.1 quiet).1
    | relock held quiet => exact held
  have entered : 0 < strand.entered mutex := Nat.add_pos_left (List.count_pos_iff.2 guarded) _
  have owns := inStep.owns_of_entered tied (tied.turn me turn) found goesOn entered
  have free : ¬ machine.isTaken mutex = true := by
    intro taken
    have holds := inStep.holds_of_owns tied within found owns taken
    exact holds.not_wants (Or.inr ⟨rest, code⟩)
  rw [step_of_task turn found active code, carryOut, if_neg free]
  exact ⟨eq_false_of_ne_true free, turn,
    (isTaken_setTaken machine true mutex within).trans (if_pos rfl)⟩

/-- As long as an execution of a cooperative program has not failed, no data lock contends. -/
theorem data_locks_uncontended {program : Program} {source : σ} {maxDecisions : Nat}
    {history : History} (cooperative : program.isCooperative = true)
    (reached : Reached program source maxDecisions history machine)
    (passed : machine.gate.failure = none) (mutex : Nat)
    (within : mutex < program.mutexes.length) : machine.Uncontended mutex := by
  obtain ⟨tied, same, inStep⟩ := reached.preserves cooperative passed
    (P := fun _ machine => machine.program = program ∧ machine.InStep)
    (fun run => ⟨rfl, inStep_start cooperative run source maxDecisions⟩)
    (fun tied passed holds =>
      ⟨(tied.program_step passed).trans holds.1, holds.2.step tied passed⟩)
  rw [← same, ← tied.size] at within
  constructor
  case taken_iff => exact inStep.taken mutex within
  case owner => exact fun thread strand found holds => inStep.owns tied found holds
  case unique =>
    intro first second firstStrand secondStrand firstFound firstHolds secondFound secondHolds
    exact (ThreadId.same_iff_lineage _ _).2
      (inStep.unique tied firstFound firstHolds secondFound secondHolds)
  case tried =>
    intro me strand site rest turn found active code
    exact inStep.tried tied within turn found active code
  case retaken =>
    intro me strand rest turn found active code
    exact inStep.retaken tied within turn found active code

/-- A child waits until it is notified, and locks the mutex once more then. -/
def lockAfterWait : Program where
  lists :=
    [("main", [.use (.spawn "w" default), .use (.lock 0 default), .use (.notifyAll 0)]),
      ("w", [.use (.lock 0 default), .use (.wait 0 false), .use (.lock 0 default)])]
  mutexes := [0]
  shared := []

/-- While the child waits the root holds the data lock and owns the monitor; when the child comes
back the data lock is free; and when the child locks the mutex once more it fails because of
itself. -/
theorem data_locks_uncontended_after_wait :
    (∃ history machine, Reached lockAfterWait (Script.ofAnswers [.position 1, .position 1]) 9
        history machine ∧
      machine.isTaken 0 = true ∧ machine.gate.model.monitors.Owns .root ⟨0⟩) ∧
    (∃ history machine, Reached lockAfterWait (Script.ofAnswers [.position 1, .position 1]) 9
        history machine ∧
      machine.isTaken 0 = false ∧ machine.step.turn = some (.child .root 0) ∧
      machine.step.isTaken 0 = true) ∧
    ∃ history machine, Reached lockAfterWait (Script.ofAnswers [.position 1, .position 1]) 9
        history machine ∧
      machine.isTaken 0 = true ∧
      ∃ actor : ThreadId,
        machine.step.gate.failure = some (lockedTwice 0 default actor.name) := by
  have cooperative : lockAfterWait.isCooperative = true := rfl
  have within : 0 < lockAfterWait.mutexes.length := Nat.zero_lt_one
  refine ⟨?_, ?_, ?_⟩
  · have reached : Reached lockAfterWait (Script.ofAnswers [.position 1, .position 1]) 9 _ _ :=
      ⟨1, 20, rfl, rfl⟩
    have law := data_locks_uncontended cooperative reached rfl 0 within
    have owns := law.owner .root _ rfl ⟨List.mem_cons_self, rfl⟩
    exact ⟨_, _, reached, rfl, owns⟩
  · have reached : Reached lockAfterWait (Script.ofAnswers [.position 1, .position 1]) 9 _ _ :=
      ⟨1, 25, rfl, rfl⟩
    have law := data_locks_uncontended cooperative reached rfl 0 within
    exact ⟨_, _, reached, law.retaken (.child .root 0) _ _ rfl rfl rfl rfl⟩
  · have reached : Reached lockAfterWait (Script.ofAnswers [.position 1, .position 1]) 9 _ _ :=
      ⟨1, 31, rfl, rfl⟩
    have law := data_locks_uncontended cooperative reached rfl 0 within
    obtain ⟨taken, fails, -⟩ := law.tried (.child .root 0) _ _ _ rfl rfl rfl rfl
    have guarded := taken.1 rfl
    obtain ⟨actor, -, failed⟩ := fails guarded
    exact ⟨_, _, reached, rfl, actor, failed⟩

end ScheduleSearch.Machine
