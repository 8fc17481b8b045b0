import ScheduleSearch.Proofs.Cooperative.Runs
import ScheduleSearch.Proofs.Monitor.Waiters
import ScheduleSearch.Proofs.Scheduler.QueuePlaces

/-!
# Monitors and data locks in step

A mutex has two locks: the monitor of the model, which a thread enters before it has a guard, and
the data lock, which goes with the guard.  They change at different moments, and between these
moments other threads run.  All the same what a strand has of a monitor is always what its guards
and its code say, and the data lock is taken if and only if some strand has a guard and is not
inside a wait through it.
-/

namespace ScheduleSearch

/-- A strand that holds a data lock does not want it. -/
theorem Strand.Holds.not_wants {strand : Strand} {mutex : Nat} (holds : strand.Holds mutex) :
    ¬ strand.Wants mutex := by
  obtain ⟨guarded, outside⟩ := holds
  rintro (⟨site, rest, -, absent⟩ | ⟨rest, code⟩)
  · exact absent guarded
  · rw [isInsideWait, code] at outside
    simp [Task.retakes] at outside

namespace Machine

variable {σ : Type} [DecisionSource σ] {machine reached : Machine σ}
  {me actor thread other : ThreadId} {strand after : Strand} {grip : Grip} {mutex : Nat}

/-- The locks agree with the strands: a strand that goes on has the share of a monitor that its
guards and its code say, stands in a queue only if its code says so, and has one guard of a mutex
at most; threads without a strand have no share of any monitor; and a data lock is taken if and
only if some strand holds it. -/
structure InStep (machine : Machine σ) : Prop where
  share : ∀ thread strand, machine.strands.get? thread = some strand → strand.phase ≠ .ended →
    ∀ mutex, machine.gate.model.monitors.share thread (lockOf mutex) = strand.entered mutex
  absent : ∀ thread, machine.strands.get? thread = none →
    ∀ lock, machine.gate.model.monitors.share thread lock = 0
  queued : ∀ thread strand, machine.strands.get? thread = some strand → strand.phase ≠ .ended →
    ∀ mutex, machine.gate.model.monitors.QueuedOn thread (lockOf mutex) → strand.Wants mutex
  once : ∀ thread strand, machine.strands.get? thread = some strand →
    ∀ mutex < machine.cells.size, strand.guards.count mutex ≤ 1
  taken : ∀ mutex < machine.cells.size, machine.isTaken mutex = true ↔
    ∃ thread strand, machine.strands.get? thread = some strand ∧ strand.Holds mutex

omit [DecisionSource σ] in
/-- Whoever holds a data lock owns the monitor. -/
theorem InStep.owns (inStep : machine.InStep) (tied : machine.Tied)
    (found : machine.strands.get? thread = some strand) (holds : strand.Holds mutex) :
    machine.gate.model.monitors.Owns thread (lockOf mutex) := by
  have goesOn : strand.phase ≠ .ended := by
    intro ended
    have guards := (tied.seated thread strand found).bare ended
    rw [Strand.Holds, guards] at holds
    exact List.not_mem_nil holds.1
  have share := inStep.share thread strand found goesOn mutex
  have counted := List.count_pos_iff.2 holds.1
  have shares : 0 < machine.gate.model.monitors.share thread (lockOf mutex) := by
    rw [share]
    exact Nat.add_pos_left counted _
  refine tied.ready.coherent.owns_of_share shares ?_
  exact fun queued => holds.not_wants (inStep.queued thread strand found goesOn mutex queued)

omit [DecisionSource σ] in
/-- A running thread that entered the monitor owns it. -/
theorem InStep.owns_of_entered (inStep : machine.InStep) (tied : machine.Tied)
    (runs : machine.gate.model.threads.state? thread = some .running)
    (found : machine.strands.get? thread = some strand) (goesOn : strand.phase ≠ .ended)
    (entered : 0 < strand.entered mutex) :
    machine.gate.model.monitors.Owns thread (lockOf mutex) := by
  have coherent := tied.ready.coherent
  rw [← inStep.share thread strand found goesOn mutex] at entered
  exact coherent.owns_of_share entered (coherent.not_queuedOn_of_running runs (lockOf mutex))

omit [DecisionSource σ] in
/-- If the data lock is taken, the owner of the monitor holds it. -/
theorem InStep.holds_of_owns (inStep : machine.InStep) (tied : machine.Tied)
    (within : mutex < machine.cells.size) (found : machine.strands.get? thread = some strand)
    (owns : machine.gate.model.monitors.Owns thread (lockOf mutex))
    (taken : machine.isTaken mutex = true) : strand.Holds mutex := by
  obtain ⟨holder, held, stands, holds⟩ := (inStep.taken mutex within).1 taken
  have other := inStep.owns tied stands holds
  have same := (ThreadId.same_iff_lineage _ _).1 (MonitorTable.same_of_owns owns other)
  rw [Table.get?_congr _ (ThreadId.compare_eq_iff.2 same), stands] at found
  obtain rfl := Option.some.inj found
  exact holds

omit [DecisionSource σ] in
/-- A data lock has one holder at most. -/
theorem InStep.unique (inStep : machine.InStep) (tied : machine.Tied)
    {firstStrand secondStrand : Strand}
    (firstFound : machine.strands.get? thread = some firstStrand)
    (firstHolds : firstStrand.Holds mutex)
    (secondFound : machine.strands.get? other = some secondStrand)
    (secondHolds : secondStrand.Holds mutex) : thread.lineage = other.lineage := by
  have first := inStep.owns tied firstFound firstHolds
  have second := inStep.owns tied secondFound secondHolds
  exact (ThreadId.same_iff_lineage _ _).1 (MonitorTable.same_of_owns first second)

/-- A step changes the share of the strand that takes it only, when it enters or leaves the
monitor. -/
theorem Advance.share (advance : Advance machine me strand actor after grip reached)
    (reporting : machine.Reporting me strand actor) (coherent : machine.gate.model.Coherent)
    (thread : ThreadId) (lock : LockId) :
    reached.gate.model.monitors.share thread lock +
        (if actor.same thread = true ∧ strand.event? = some (.act (.leave lock)) then 1 else 0) =
      machine.gate.model.monitors.share thread lock +
        (if actor.same thread = true ∧ strand.event? = some (.act (.enter lock))
          then 1 else 0) := by
  rw [advance.gate]
  cases reported : strand.event? with
  | none => simp [gateAfter]
  | some event =>
      obtain ⟨reply, succeeded⟩ := advance.succeeds event reported
      have stepped : machine.gate.model.step actor event =
          (.ok reply, (machine.gate.model.step actor event).2) := Prod.ext succeeded rfl
      have shares := coherent.share_step reporting.runs event thread lock
      rw [Scheduler.exits_of_ok reporting.runs stepped] at shares
      simpa [Event.exits, Event.entries, gateAfter, Gate.reported] using shares

private theorem Advance.share_other (advance : Advance machine me strand actor after grip reached)
    (reporting : machine.Reporting me strand actor) (coherent : machine.gate.model.Coherent)
    (other : thread.lineage ≠ me.lineage) (lock : LockId) :
    reached.gate.model.monitors.share thread lock =
      machine.gate.model.monitors.share thread lock := by
  have foreign : ¬ actor.same thread = true := by
    rw [ThreadId.same_iff_lineage, reporting.same]
    exact Ne.symm other
  have shares := advance.share reporting coherent thread lock
  rwa [if_neg fun both => foreign both.1, if_neg fun both => foreign both.1] at shares

/-- A thread stands in a queue after a step as it did before, or the step is its own and brings
it there. -/
theorem Advance.queuedOn (advance : Advance machine me strand actor after grip reached)
    (reporting : machine.Reporting me strand actor) (coherent : machine.gate.model.Coherent)
    {lock : LockId} (queued : reached.gate.model.monitors.QueuedOn thread lock) :
    machine.gate.model.monitors.QueuedOn thread lock ∨
      (actor.lineage = thread.lineage ∧
        ((strand.event? = some (.act (.enter lock)) ∧
            ¬ machine.gate.model.monitors.Owns actor lock) ∨
          ∃ timed, strand.event? = some (.act (.wait lock timed)))) := by
  rw [advance.gate] at queued
  cases reported : strand.event? with
  | none =>
      rw [reported] at queued
      exact Or.inl queued
  | some event =>
      rw [reported] at queued
      rcases coherent.queuedOn_step reporting.runs queued with before | ⟨own, enters | waits⟩
      · exact Or.inl before
      · exact Or.inr ⟨own, Or.inl ⟨congrArg some enters.1, enters.2⟩⟩
      · obtain ⟨timed, rfl⟩ := waits
        exact Or.inr ⟨own, Or.inr ⟨timed, rfl⟩⟩

private theorem Reporting.found_of_same (reporting : machine.Reporting me strand actor)
    (own : thread.lineage = me.lineage) : machine.strands.get? thread = some strand :=
  (Table.get?_congr _ (ThreadId.compare_eq_iff.2 own)).trans reporting.found

private theorem InStep.share_advance (inStep : machine.InStep) (tied : machine.Tied)
    (reporting : machine.Reporting me strand actor)
    (move : strand.Move machine.isTaken grip after)
    (advance : Advance machine me strand actor after grip reached) (ties : reached.Tied)
    {stood : Strand} (stands : reached.strands.get? thread = some stood)
    (goesOn : stood.phase ≠ .ended) (mutex : Nat) :
    reached.gate.model.monitors.share thread (lockOf mutex) = stood.entered mutex := by
  have coherent := tied.ready.coherent
  by_cases own : thread.lineage = me.lineage
  · have shares := advance.share reporting coherent thread (lockOf mutex)
    have same : actor.same thread = true :=
      (ThreadId.same_iff_lineage _ _).2 (reporting.same.trans own.symm)
    rw [Table.get?_congr _ (ThreadId.compare_eq_iff.2 own), advance.own] at stands
    obtain rfl := Option.some.inj stands
    have before := inStep.share thread strand (reporting.found_of_same own) reporting.goesOn mutex
    have entered := move.entered goesOn mutex
    simp only [same, true_and] at shares
    omega
  · rw [advance.share_other reporting coherent own]
    rcases advance.others thread own with kept | ⟨-, born, -, key, newcomer⟩
    · rw [kept] at stands
      exact inStep.share thread stood stands goesOn mutex
    · rw [newcomer] at stands
      obtain rfl := Option.some.inj stands
      obtain ⟨-, -, quiet⟩ := (ties.seated thread _ newcomer).unborn rfl
      rw [inStep.absent thread (tied.fresh reporting.runs thread born),
        quiet.entered]
      rfl

private theorem InStep.absent_advance (inStep : machine.InStep) (tied : machine.Tied)
    (reporting : machine.Reporting me strand actor)
    (advance : Advance machine me strand actor after grip reached)
    (missing : reached.strands.get? thread = none) (lock : LockId) :
    reached.gate.model.monitors.share thread lock = 0 := by
  have other : thread.lineage ≠ me.lineage := by
    intro own
    rw [Table.get?_congr _ (ThreadId.compare_eq_iff.2 own), advance.own] at missing
    cases missing
  rw [advance.share_other reporting tied.ready.coherent other]
  rcases advance.others thread other with kept | ⟨-, -, -, key, newcomer⟩
  · rw [kept] at missing
    exact inStep.absent thread missing lock
  · rw [newcomer] at missing
    cases missing

private theorem InStep.queued_advance (inStep : machine.InStep) (tied : machine.Tied)
    (reporting : machine.Reporting me strand actor)
    (move : strand.Move machine.isTaken grip after)
    (advance : Advance machine me strand actor after grip reached) {stood : Strand}
    (stands : reached.strands.get? thread = some stood) (goesOn : stood.phase ≠ .ended)
    (queued : reached.gate.model.monitors.QueuedOn thread (lockOf mutex)) :
    stood.Wants mutex := by
  have coherent := tied.ready.coherent
  have live : machine.gate.model.isLive actor = true :=
    Scheduler.isLive_iff.2 ⟨_, reporting.runs⟩
  have cause := advance.queuedOn reporting coherent queued
  by_cases own : thread.lineage = me.lineage
  · have runs := (RunStates.state?_congr _ (own.trans reporting.same.symm)).trans reporting.runs
    have unqueued := coherent.not_queuedOn_of_running runs (lockOf mutex)
    have found := reporting.found_of_same own
    rw [Table.get?_congr _ (ThreadId.compare_eq_iff.2 own), advance.own] at stands
    obtain rfl := Option.some.inj stands
    rcases cause with before | ⟨-, ⟨enters, foreign⟩ | ⟨timed, waits⟩⟩
    · exact absurd before unqueued
    · refine move.wants_of_enter enters ?_
      intro guarded
      have counted := List.count_pos_iff.2 guarded
      have entered : 0 < strand.entered mutex := Nat.add_pos_left counted _
      have owns := inStep.owns_of_entered tied runs found reporting.goesOn entered
      exact foreign ((MonitorTable.owns_congr (own.trans reporting.same.symm)).1 owns)
    · exact move.wants_of_wait waits
  · rcases cause with before | ⟨same, -⟩
    · rcases advance.others thread own with kept | ⟨-, born, -⟩
      · rw [kept] at stands
        exact inStep.queued thread stood stands goesOn mutex before
      · exact absurd before (coherent.not_queuedOn_of_unknown (coherent.child_unknown live born) _)
    · exact absurd (same.symm.trans reporting.same) own

private theorem InStep.once_advance (inStep : machine.InStep)
    (reporting : machine.Reporting me strand actor)
    (move : strand.Move machine.isTaken grip after)
    (advance : Advance machine me strand actor after grip reached) {stood : Strand}
    (stands : reached.strands.get? thread = some stood) (within : mutex < machine.cells.size) :
    stood.guards.count mutex ≤ 1 := by
  by_cases own : thread.lineage = me.lineage
  · rw [Table.get?_congr _ (ThreadId.compare_eq_iff.2 own), advance.own] at stands
    obtain rfl := Option.some.inj stands
    refine move.once ?_ (inStep.once me strand reporting.found mutex within)
    exact fun holds => (inStep.taken mutex within).2 ⟨me, strand, reporting.found, holds⟩
  · rcases advance.others thread own with kept | ⟨-, -, -, key, newcomer⟩
    · rw [kept] at stands
      exact inStep.once thread stood stands mutex within
    · rw [newcomer] at stands
      obtain rfl := Option.some.inj stands
      exact Nat.zero_le 1

/-- The holders after a step are those before, but for the strand that takes the step. -/
theorem Advance.holder_iff (advance : Advance machine me strand actor after grip reached)
    (tied : machine.Tied) (reporting : machine.Reporting me strand actor) (mutex : Nat) :
    (∃ thread stood, reached.strands.get? thread = some stood ∧ stood.Holds mutex) ↔
      after.Holds mutex ∨ ∃ thread stood, thread.lineage ≠ me.lineage ∧
        machine.strands.get? thread = some stood ∧ stood.Holds mutex := by
  constructor
  · rintro ⟨thread, stood, stands, holds⟩
    by_cases own : thread.lineage = me.lineage
    · rw [Table.get?_congr _ (ThreadId.compare_eq_iff.2 own), advance.own] at stands
      obtain rfl := Option.some.inj stands
      exact Or.inl holds
    · rcases advance.others thread own with kept | ⟨-, -, -, key, newcomer⟩
      · rw [kept] at stands
        exact Or.inr ⟨thread, stood, own, stands, holds⟩
      · rw [newcomer] at stands
        obtain rfl := Option.some.inj stands
        exact absurd holds.1 List.not_mem_nil
  · rintro (holds | ⟨thread, stood, other, found, holds⟩)
    · exact ⟨me, after, advance.own, holds⟩
    · rcases advance.others thread other with kept | ⟨-, born, -⟩
      · exact ⟨thread, stood, kept.trans found, holds⟩
      · cases found.symm.trans (tied.fresh reporting.runs thread born)

private theorem InStep.taken_advance (inStep : machine.InStep) (tied : machine.Tied)
    (reporting : machine.Reporting me strand actor)
    (move : strand.Move machine.isTaken grip after)
    (advance : Advance machine me strand actor after grip reached)
    (within : mutex < machine.cells.size) :
    reached.isTaken mutex = true ↔
      ∃ thread stood, reached.strands.get? thread = some stood ∧ stood.Holds mutex := by
  have found := reporting.found
  rw [advance.taken mutex within, advance.holder_iff tied reporting]
  by_cases touched : mutex ∈ grip.mutexes
  · rw [if_pos touched]
    cases takes : grip.taken with
    | true => exact iff_of_true rfl (Or.inl (move.holds_of_taken touched takes))
    | false =>
        have once := inStep.once me strand found mutex within
        obtain ⟨held, left⟩ := move.holds_of_freed touched takes once
        refine iff_of_false Bool.false_ne_true ?_
        rintro (holds | ⟨thread, stood, other, stands, holds⟩)
        · exact left holds
        · exact other (inStep.unique tied stands holds found held)
  · rw [if_neg touched, inStep.taken mutex within, move.holds_iff touched]
    constructor
    · rintro ⟨thread, stood, stands, holds⟩
      by_cases own : thread.lineage = me.lineage
      · rw [reporting.found_of_same own] at stands
        obtain rfl := Option.some.inj stands
        exact Or.inl holds
      · exact Or.inr ⟨thread, stood, own, stands, holds⟩
    · rintro (holds | ⟨thread, stood, -, stands, holds⟩)
      · exact ⟨me, strand, found, holds⟩
      · exact ⟨thread, stood, stands, holds⟩

theorem InStep.step (inStep : machine.InStep) (tied : machine.Tied)
    (passed : machine.step.gate.failure = none) : machine.step.InStep := by
  rcases tied.step_cases passed with
    ⟨-, idle⟩ | ⟨me, strand, actor, after, grip, reporting, move, advance⟩
  · rw [idle]
    exact ⟨inStep.share, inStep.absent, inStep.queued, inStep.once, inStep.taken⟩
  · have ties := tied.step passed
    constructor
    case share =>
      intro thread stood stands goesOn mutex
      exact inStep.share_advance tied reporting move advance ties stands goesOn mutex
    case absent =>
      intro thread missing lock
      exact inStep.absent_advance tied reporting advance missing lock
    case queued =>
      intro thread stood stands goesOn mutex queued
      exact inStep.queued_advance tied reporting move advance stands goesOn queued
    case once =>
      intro thread stood stands mutex within
      rw [advance.size] at within
      exact inStep.once_advance reporting move advance stands within
    case taken =>
      intro mutex within
      rw [advance.size] at within
      exact inStep.taken_advance tied reporting move advance within

omit [DecisionSource σ] in
private theorem isTaken_start (program : Program) (run : Nat) (source : σ)
    (maxDecisions mutex : Nat) :
    (start program run source maxDecisions).isTaken mutex = false := by
  change ((program.mutexes.map Cell.ofValue).toArray[mutex]?).any (·.taken) = false
  rw [List.getElem?_toArray, List.getElem?_map]
  cases program.mutexes[mutex]? <;> rfl

omit [DecisionSource σ] in
theorem inStep_start {program : Program} (cooperative : program.isCooperative = true) (run : Nat)
    (source : σ) (maxDecisions : Nat) : (start program run source maxDecisions).InStep := by
  have unguarded : ∀ {thread : ThreadId} {strand : Strand} {mutex : Nat},
      (start program run source maxDecisions).strands.get? thread = some strand →
        mutex ∉ strand.guards := by
    intro thread strand mutex stands
    obtain ⟨-, -, -, guards, -⟩ := strand_start cooperative stands
    rw [guards]
    exact List.not_mem_nil
  constructor
  case share =>
    intro thread strand stands goesOn mutex
    obtain ⟨-, -, -, guards, quiet⟩ := strand_start cooperative stands
    rw [quiet.entered, guards]
    rfl
  case absent => exact fun _ _ _ => rfl
  case queued =>
    intro thread strand stands goesOn mutex queued
    rcases queued with enters | awaits
    · cases enters
    · cases awaits
  case once =>
    intro thread strand stands mutex within
    rw [List.count_eq_zero_of_not_mem (unguarded stands)]
    exact Nat.zero_le 1
  case taken =>
    intro mutex within
    refine iff_of_false ?_ ?_
    · rw [isTaken_start]
      exact Bool.false_ne_true
    · rintro ⟨thread, strand, stands, holds⟩
      exact unguarded stands holds.1

end Machine

end ScheduleSearch
