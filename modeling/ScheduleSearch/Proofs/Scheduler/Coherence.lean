import ScheduleSearch.Proofs.Monitor.Soundness
import ScheduleSearch.Proofs.State.Joins
import ScheduleSearch.Proofs.State.RunStates
import ScheduleSearch.Scheduler.State

/-!
# Coherent states

The run state of a thread is one of several records of what the thread is doing: the entry and
signal queues, the joins, the permits and the interrupt flags speak of it too.
`Scheduler.Fits` says what these must be for a given run state, and a state is coherent if
they are so for every thread, live or not.  Coherence is what every event of the running
thread preserves.
-/

namespace ScheduleSearch.Scheduler

variable {σ : Type} {state after : Scheduler σ}

/-- The lock is held, and not by `thread`. -/
def HeldByOther (state : Scheduler σ) (lock : LockId) (thread : ThreadId) : Prop :=
  ∃ owner, (state.monitors.monitorOf lock).owner = some owner ∧ owner.lineage ≠ thread.lineage

/-- The thread is registered for nobody's exit. -/
def Unjoined (state : Scheduler σ) (thread : ThreadId) : Prop :=
  ∀ joinee, ¬ state.joins.Waits thread joinee

/-- The thread has neither a permit nor its interrupt flag set. -/
def Unprompted (state : Scheduler σ) (thread : ThreadId) : Prop :=
  state.permits.contains thread = false ∧ state.interrupted.contains thread = false

/-- What is recorded of a thread with the given run state, or without one. -/
def Fits (state : Scheduler σ) (thread : ThreadId) : Option RunState → Prop
  | none =>
      state.monitors.entering? thread = none ∧ state.monitors.waitingFor? thread = none ∧
        state.Unjoined thread ∧ state.Unprompted thread
  | some .running =>
      state.monitors.entering? thread = none ∧ state.monitors.waitingFor? thread = none ∧
        state.Unjoined thread
  | some .runnable =>
      state.monitors.waitingFor? thread = none ∧ state.Unjoined thread
  | some (.blocked none) => False
  | some (.blocked (some (.lock lock))) =>
      state.monitors.entering? thread = some lock ∧ state.monitors.waitingFor? thread = none ∧
        state.Unjoined thread ∧ state.HeldByOther lock thread
  | some (.blocked (some (.signal lock))) =>
      state.monitors.entering? thread = none ∧ state.monitors.waitingFor? thread = some lock ∧
        state.Unjoined thread
  | some (.blocked (some .park)) =>
      state.monitors.entering? thread = none ∧ state.monitors.waitingFor? thread = none ∧
        state.Unjoined thread ∧ state.Unprompted thread
  | some (.blocked (some (.join joinee))) =>
      state.monitors.entering? thread = none ∧ state.monitors.waitingFor? thread = none ∧
        (∀ other, state.joins.Waits thread other ↔ other.lineage = joinee.lineage) ∧
        state.isLive joinee = true

/-- The thread is live or reached its exit. -/
def Known (state : Scheduler σ) (thread : ThreadId) : Prop :=
  state.isLive thread = true ∨ state.hasExited thread = true

/-- The records of a state agree with each other. -/
structure Coherent (state : Scheduler σ) : Prop where
  monitors : state.monitors.Sound
  fits : ∀ thread, state.Fits thread (state.threads.state? thread)
  single : ∀ first second, state.threads.state? first = some .running →
    state.threads.state? second = some .running → first.lineage = second.lineage
  finished : ∀ thread, state.hasExited thread = true → state.threads.state? thread = none
  numbered : ∀ parent seq name, state.Known (.spawned parent seq name) →
    state.Known parent ∧
      (state.isLive parent = true → seq < (state.registry.spawned.get? parent).getD 0)

private theorem heldByOther_congr {lock : LockId} {first second : ThreadId}
    (same : first.lineage = second.lineage) :
    state.HeldByOther lock first ↔ state.HeldByOther lock second := by
  simp only [HeldByOther, same]

private theorem unjoined_congr {first second : ThreadId} (same : first.lineage = second.lineage) :
    state.Unjoined first ↔ state.Unjoined second :=
  forall_congr' fun _ => not_congr (Joins.waits_congr same rfl)

theorem contains_congr {keys : KeySet ThreadId} {first second : ThreadId}
    (same : first.lineage = second.lineage) : keys.contains first = keys.contains second := by
  unfold Table.contains
  rw [Table.get?_congr keys (ThreadId.compare_eq_iff.2 same)]

private theorem unprompted_congr {first second : ThreadId} (same : first.lineage = second.lineage) :
    state.Unprompted first ↔ state.Unprompted second := by
  unfold Unprompted
  rw [contains_congr same, contains_congr same]

theorem isLive_congr (state : Scheduler σ) {first second : ThreadId}
    (same : first.lineage = second.lineage) : state.isLive first = state.isLive second := by
  unfold isLive RunStates.contains Table.contains
  rw [Table.get?_congr state.threads.table (ThreadId.compare_eq_iff.2 same)]

theorem fits_congr {first second : ThreadId} (same : first.lineage = second.lineage)
    (run : Option RunState) : state.Fits first run ↔ state.Fits second run := by
  have enters := state.monitors.entering?_congr same
  have awaits := state.monitors.waitingFor?_congr same
  have unjoined : state.Unjoined first ↔ state.Unjoined second := unjoined_congr same
  have unprompted : state.Unprompted first ↔ state.Unprompted second := unprompted_congr same
  have held : ∀ lock, state.HeldByOther lock first ↔ state.HeldByOther lock second :=
    fun _ => heldByOther_congr same
  have waits : ∀ other, state.joins.Waits first other ↔ state.joins.Waits second other :=
    fun _ => Joins.waits_congr same rfl
  match run with
  | none => simp only [Fits, enters, awaits, unjoined, unprompted]
  | some .running => simp only [Fits, enters, awaits, unjoined]
  | some .runnable => simp only [Fits, awaits, unjoined]
  | some (.blocked none) => rfl
  | some (.blocked (some (.lock lock))) => simp only [Fits, enters, awaits, unjoined, held]
  | some (.blocked (some (.signal lock))) => simp only [Fits, enters, awaits, unjoined]
  | some (.blocked (some .park)) => simp only [Fits, enters, awaits, unjoined, unprompted]
  | some (.blocked (some (.join joinee))) => simp only [Fits, enters, awaits, waits]

theorem isLive_iff {thread : ThreadId} :
    state.isLive thread = true ↔ ∃ run, state.threads.state? thread = some run :=
  RunStates.contains_iff

theorem isLive_of_state?_isSome
    (same : ∀ thread, (after.threads.state? thread).isSome = (state.threads.state? thread).isSome)
    (thread : ThreadId) : after.isLive thread = state.isLive thread :=
  same thread

/-- A thread that wants to enter a lock is runnable or waits for the one that holds it. -/
theorem Fits.of_entering {thread : ThreadId} {run : Option RunState} {lock : LockId}
    (fits : state.Fits thread run) (enters : state.monitors.entering? thread = some lock) :
    state.Unjoined thread ∧
      (run = some .runnable ∨
        (run = some (.blocked (some (.lock lock))) ∧ state.HeldByOther lock thread)) := by
  match run with
  | none => exact absurd (fits.1.symm.trans enters) nofun
  | some .running => exact absurd (fits.1.symm.trans enters) nofun
  | some .runnable => exact ⟨fits.2, Or.inl rfl⟩
  | some (.blocked none) => exact False.elim fits
  | some (.blocked (some (.lock wanted))) =>
      obtain rfl := Option.some.inj (fits.1.symm.trans enters)
      exact ⟨fits.2.2.1, Or.inr ⟨rfl, fits.2.2.2⟩⟩
  | some (.blocked (some (.signal awaited))) => exact absurd (fits.1.symm.trans enters) nofun
  | some (.blocked (some .park)) => exact absurd (fits.1.symm.trans enters) nofun
  | some (.blocked (some (.join joinee))) => exact absurd (fits.1.symm.trans enters) nofun

/-- A thread that awaits a signal is blocked for that reason. -/
theorem Fits.of_waitingFor {thread : ThreadId} {run : Option RunState} {lock : LockId}
    (fits : state.Fits thread run) (awaits : state.monitors.waitingFor? thread = some lock) :
    state.Unjoined thread ∧ run = some (.blocked (some (.signal lock))) := by
  match run with
  | none => exact absurd (fits.2.1.symm.trans awaits) nofun
  | some .running => exact absurd (fits.2.1.symm.trans awaits) nofun
  | some .runnable => exact absurd (fits.1.symm.trans awaits) nofun
  | some (.blocked none) => exact False.elim fits
  | some (.blocked (some (.lock wanted))) => exact absurd (fits.2.1.symm.trans awaits) nofun
  | some (.blocked (some (.signal awaited))) =>
      obtain rfl := Option.some.inj (fits.2.1.symm.trans awaits)
      exact ⟨fits.2.2, rfl⟩
  | some (.blocked (some .park)) => exact absurd (fits.2.1.symm.trans awaits) nofun
  | some (.blocked (some (.join joinee))) => exact absurd (fits.2.1.symm.trans awaits) nofun

/-- A queued thread is runnable or waits, and joins nobody. -/
theorem Fits.of_queued {thread : ThreadId} {run : Option RunState} {lock : LockId}
    (fits : state.Fits thread run)
    (queued : state.monitors.entering? thread = some lock ∨
      state.monitors.waitingFor? thread = some lock) :
    state.Unjoined thread ∧ (run = some .runnable ∨ ∃ reason, run = some (.blocked reason)) := by
  rcases queued with enters | awaits
  · obtain ⟨unjoined, runnable | ⟨blocked, -⟩⟩ := fits.of_entering enters
    · exact ⟨unjoined, Or.inl runnable⟩
    · exact ⟨unjoined, Or.inr ⟨_, blocked⟩⟩
  · obtain ⟨unjoined, blocked⟩ := fits.of_waitingFor awaits
    exact ⟨unjoined, Or.inr ⟨_, blocked⟩⟩

/-- A thread that is registered for an exit is blocked until that exit, and is registered for
no other. -/
theorem Fits.of_waits {thread joinee : ThreadId} {run : Option RunState}
    (fits : state.Fits thread run) (waits : state.joins.Waits thread joinee) :
    state.monitors.waitingFor? thread = none ∧
      (∀ other, state.joins.Waits thread other → other.lineage = joinee.lineage) ∧
      ∃ joined, run = some (.blocked (some (.join joined))) ∧
        joinee.lineage = joined.lineage ∧ state.isLive joined = true := by
  match run with
  | none => exact absurd waits (fits.2.2.1 joinee)
  | some .running => exact absurd waits (fits.2.2 joinee)
  | some .runnable => exact absurd waits (fits.2 joinee)
  | some (.blocked none) => exact False.elim fits
  | some (.blocked (some (.lock wanted))) => exact absurd waits (fits.2.2.1 joinee)
  | some (.blocked (some (.signal awaited))) => exact absurd waits (fits.2.2 joinee)
  | some (.blocked (some .park)) => exact absurd waits (fits.2.2.1 joinee)
  | some (.blocked (some (.join joined))) =>
      have same := (fits.2.2.1 joinee).1 waits
      refine ⟨fits.2.1, ?_, joined, rfl, same, fits.2.2.2⟩
      intro other also
      exact ((fits.2.2.1 other).1 also).trans same.symm

/-- A thread whose own records did not change still fits, as long as the lock it wants stays
held by another thread and the thread it joins stays live. -/
theorem Fits.of_untouched {thread : ThreadId} {run : Option RunState}
    (fits : state.Fits thread run)
    (enters : after.monitors.entering? thread = state.monitors.entering? thread)
    (awaits : after.monitors.waitingFor? thread = state.monitors.waitingFor? thread)
    (joins : ∀ joinee, after.joins.Waits thread joinee ↔ state.joins.Waits thread joinee)
    (unprompted : run = none ∨ run = some (.blocked (some .park)) →
      state.Unprompted thread → after.Unprompted thread)
    (held : ∀ lock, state.monitors.entering? thread = some lock →
      state.HeldByOther lock thread → after.HeldByOther lock thread)
    (live : ∀ joinee, state.joins.Waits thread joinee → state.isLive joinee = true →
      after.isLive joinee = true) : after.Fits thread run := by
  have unjoined : after.Unjoined thread ↔ state.Unjoined thread :=
    forall_congr' fun joinee => not_congr (joins joinee)
  match run with
  | none =>
      simp only [Fits, enters, awaits, unjoined] at fits ⊢
      exact ⟨fits.1, fits.2.1, fits.2.2.1, unprompted (Or.inl rfl) fits.2.2.2⟩
  | some .running =>
      simp only [Fits, enters, awaits, unjoined] at fits ⊢
      exact fits
  | some .runnable =>
      simp only [Fits, awaits, unjoined] at fits ⊢
      exact fits
  | some (.blocked none) => exact fits
  | some (.blocked (some (.lock lock))) =>
      simp only [Fits, enters, awaits, unjoined] at fits ⊢
      exact ⟨fits.1, fits.2.1, fits.2.2.1, held lock fits.1 fits.2.2.2⟩
  | some (.blocked (some (.signal lock))) =>
      simp only [Fits, enters, awaits, unjoined] at fits ⊢
      exact fits
  | some (.blocked (some .park)) =>
      simp only [Fits, enters, awaits, unjoined] at fits ⊢
      exact ⟨fits.1, fits.2.1, fits.2.2.1, unprompted (Or.inr rfl) fits.2.2.2⟩
  | some (.blocked (some (.join joinee))) =>
      simp only [Fits, enters, awaits, joins] at fits ⊢
      exact ⟨fits.1, fits.2.1, fits.2.2.1,
        live joinee ((fits.2.2.1 joinee).2 rfl) fits.2.2.2⟩

/-- What keeps the monitors sound and every thread fit keeps a state coherent, as long as no
thread comes or goes and no second thread starts to run. -/
theorem Coherent.of_changes (coherent : state.Coherent) (monitors : after.monitors.Sound)
    (fits : ∀ thread, after.Fits thread (after.threads.state? thread))
    (single : ∀ first second, after.threads.state? first = some .running →
      after.threads.state? second = some .running → first.lineage = second.lineage)
    (lives : ∀ thread,
      (after.threads.state? thread).isSome = (state.threads.state? thread).isSome)
    (exited : after.exited = state.exited)
    (spawned : after.registry.spawned = state.registry.spawned) : after.Coherent where
  monitors := monitors
  fits := fits
  single := single
  finished := by
    intro thread holds
    have before : state.hasExited thread = true := by
      rw [hasExited, ← exited]
      exact holds
    have gone := lives thread
    rw [coherent.finished thread before] at gone
    exact Option.isNone_iff_eq_none.1 (by simpa using gone)
  numbered := by
    have known : ∀ thread, after.Known thread ↔ state.Known thread := by
      intro thread
      unfold Known
      rw [isLive_of_state?_isSome lives thread, hasExited, exited]
      rfl
    intro parent seq name holds
    rw [known, isLive_of_state?_isSome lives, spawned]
    exact coherent.numbered parent seq name ((known _).1 holds)

/-- One thread takes on another run state, for which the records were changed. -/
theorem Coherent.of_turn (coherent : state.Coherent) {actor : ThreadId} {before run : RunState}
    (found : state.threads.state? actor = some before)
    (runs : ∀ thread, after.threads.state? thread =
      if thread.lineage = actor.lineage then some run else state.threads.state? thread)
    (fits : after.Fits actor (some run)) (sound : after.monitors.Sound)
    (enters : ∀ thread, thread.lineage ≠ actor.lineage →
      after.monitors.entering? thread = state.monitors.entering? thread)
    (awaits : ∀ thread, thread.lineage ≠ actor.lineage →
      after.monitors.waitingFor? thread = state.monitors.waitingFor? thread)
    (waits : ∀ thread joinee, thread.lineage ≠ actor.lineage →
      (after.joins.Waits thread joinee ↔ state.joins.Waits thread joinee))
    (unprompted : ∀ thread, thread.lineage ≠ actor.lineage →
      state.Unprompted thread → after.Unprompted thread)
    (owners : ∀ lock owner, (state.monitors.monitorOf lock).owner = some owner →
      (after.monitors.monitorOf lock).owner = some owner)
    (alone : run = .running → ∀ thread, thread.lineage ≠ actor.lineage →
      state.threads.state? thread ≠ some .running)
    (exited : after.exited = state.exited)
    (spawned : after.registry.spawned = state.registry.spawned) : after.Coherent := by
  have lives : ∀ thread, (after.threads.state? thread).isSome =
      (state.threads.state? thread).isSome := by
    intro thread
    rw [runs]
    by_cases here : thread.lineage = actor.lineage
    · rw [if_pos here, state.threads.state?_congr here, found]
      rfl
    · rw [if_neg here]
  refine coherent.of_changes sound ?_ ?_ lives exited spawned
  · intro thread
    rw [runs]
    by_cases here : thread.lineage = actor.lineage
    · rw [if_pos here]
      exact (fits_congr here _).2 fits
    · rw [if_neg here]
      refine (coherent.fits thread).of_untouched (enters thread here) (awaits thread here)
        (fun joinee => waits thread joinee here) (fun _ => unprompted thread here) ?_ ?_
      · rintro lock - ⟨owner, held, different⟩
        exact ⟨owner, owners lock owner held, different⟩
      · rintro joinee - live
        rw [isLive_of_state?_isSome lives]
        exact live
  · intro first second firstRuns secondRuns
    rw [runs] at firstRuns secondRuns
    by_cases firstHere : first.lineage = actor.lineage
    · by_cases secondHere : second.lineage = actor.lineage
      · exact firstHere.trans secondHere.symm
      · rw [if_pos firstHere] at firstRuns
        rw [if_neg secondHere] at secondRuns
        exact absurd secondRuns (alone (Option.some.inj firstRuns) second secondHere)
    · by_cases secondHere : second.lineage = actor.lineage
      · rw [if_neg firstHere] at firstRuns
        rw [if_pos secondHere] at secondRuns
        exact absurd firstRuns (alone (Option.some.inj secondRuns) first firstHere)
      · rw [if_neg firstHere] at firstRuns
        rw [if_neg secondHere] at secondRuns
        exact coherent.single first second firstRuns secondRuns

/-- Nobody runs beside the running thread. -/
theorem Coherent.alone (coherent : state.Coherent) {actor : ThreadId}
    (runs : state.threads.state? actor = some .running) (thread : ThreadId)
    (different : thread.lineage ≠ actor.lineage) :
    state.threads.state? thread ≠ some .running :=
  fun also => different (coherent.single thread actor also runs)

end ScheduleSearch.Scheduler
