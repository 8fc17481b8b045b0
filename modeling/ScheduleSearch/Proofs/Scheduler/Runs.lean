import Mathlib.Data.List.Induction
import ScheduleSearch.Decision.Script
import ScheduleSearch.Exploration.EventProgram
import ScheduleSearch.Proofs.Scheduler.Choice

/-!
# Runs

In a run a fresh execution is begun once, and then the thread that runs at the moment reports
one event after the other, until one fails or no thread is live any more.  Every state of a run
is coherent, whatever the events and whatever the source of decisions.
-/

namespace ScheduleSearch.Scheduler

variable {σ : Type} [DecisionSource σ]

/-- Running threads report the events of a history, each with success. -/
inductive Steps (first : Scheduler σ) : History → Scheduler σ → Prop
  | refl : Steps first [] first
  | report {history : History} {state after : Scheduler σ} {actor : ThreadId} {event : Event}
      {reply : Reply} (steps : Steps first history state)
      (runs : state.threads.isRunning actor = true)
      (stepped : state.step actor event = (.ok reply, after)) :
      Steps first (history ++ [(actor, event)]) after

/-- The state is reached by a history in a run that begins with a fresh execution. -/
def Driven (source : σ) (maxDecisions : Nat) (host : Host) (history : History)
    (state : Scheduler σ) : Prop :=
  Steps ((fresh source maxDecisions).begin host).2 history state

theorem Steps.trans {first middle last : Scheduler σ} {early late : History}
    (before : Steps first early middle) (behind : Steps middle late last) :
    Steps first (early ++ late) last := by
  induction behind with
  | refl =>
      rw [List.append_nil]
      exact before
  | report steps runs stepped inductionHypothesis =>
      rw [← List.append_assoc]
      exact .report inductionHypothesis runs stepped

/-- Lets running threads report a history, if every event of it is one of the running thread
and succeeds. -/
def drive : Scheduler σ → History → Option (Scheduler σ)
  | state, [] => some state
  | state, (actor, event) :: rest =>
      if state.threads.isRunning actor then
        match state.step actor event with
        | (.ok _, after) => drive after rest
        | (.error _, _) => none
      else none

/-- The state that a history leads to, and the first one where it leads nowhere. -/
def reach (first : Scheduler σ) (history : History) : Scheduler σ :=
  (drive first history).getD first

theorem drive_eq_reach (first : Scheduler σ) (history : History)
    (possible : (drive first history).isSome = true) :
    drive first history = some (first.reach history) := by
  obtain ⟨state, found⟩ := Option.isSome_iff_exists.1 possible
  rw [reach, found]
  rfl

private theorem drive_append (first second : History) :
    ∀ state : Scheduler σ,
      drive state (first ++ second) =
        (drive state first).bind fun middle => drive middle second := by
  induction first with
  | nil =>
      intro state
      rfl
  | cons head rest inductionHypothesis =>
      intro state
      obtain ⟨actor, event⟩ := head
      rw [List.cons_append, drive, drive]
      split
      · split
        next after stepped => exact inductionHypothesis after
        next => rfl
      · rfl

theorem drive_singleton {state after : Scheduler σ} {actor : ThreadId} {event : Event} :
    drive state [(actor, event)] = some after ↔
      state.threads.isRunning actor = true ∧
        ∃ reply, state.step actor event = (.ok reply, after) := by
  unfold drive
  by_cases runs : state.threads.isRunning actor = true
  · rw [if_pos runs]
    cases stepped : state.step actor event with
    | mk outcome reached =>
        cases outcome with
        | ok reply =>
            constructor
            · intro found
              obtain rfl := Option.some.inj found
              exact ⟨runs, reply, rfl⟩
            · rintro ⟨-, other, equal⟩
              obtain ⟨-, rfl⟩ := Prod.mk.inj equal
              rfl
        | error halt =>
            constructor
            · intro impossible
              cases impossible
            · rintro ⟨-, other, equal⟩
              cases equal
  · rw [if_neg runs]
    constructor
    · intro impossible
      cases impossible
    · exact fun both => absurd both.1 runs

/-- A history leads to at most one state, which can be computed. -/
theorem steps_iff_drive {first state : Scheduler σ} {history : History} :
    Steps first history state ↔ drive first history = some state := by
  constructor
  · intro steps
    induction steps with
    | refl => rfl
    | @report history state after actor event reply steps runs stepped inductionHypothesis =>
        rw [drive_append, inductionHypothesis]
        exact drive_singleton.2 ⟨runs, reply, stepped⟩
  · induction history using List.reverseRecOn generalizing state with
    | nil =>
        intro found
        obtain rfl := Option.some.inj found
        exact .refl
    | append_singleton rest last inductionHypothesis =>
        intro found
        obtain ⟨actor, event⟩ := last
        rw [drive_append, Option.bind_eq_some_iff] at found
        obtain ⟨middle, before, reached⟩ := found
        obtain ⟨runs, reply, stepped⟩ := drive_singleton.1 reached
        exact .report (inductionHypothesis before) runs stepped

theorem Steps.coherent {first state : Scheduler σ} {history : History}
    (steps : Steps first history state) (coherent : first.Coherent) : state.Coherent := by
  induction steps with
  | refl => exact coherent
  | @report history state after actor event reply steps runs stepped inductionHypothesis =>
      have reported := inductionHypothesis.reported (RunStates.isRunning_iff.1 runs) event
      rw [stepped] at reported
      exact reported.1

theorem Driven.coherent {source : σ} {maxDecisions : Nat} {host : Host} {history : History}
    {state : Scheduler σ} (driven : Driven source maxDecisions host history state) :
    state.Coherent :=
  Steps.coherent driven (coherent_begun source maxDecisions host)

/-- What holds in the beginning and is kept by every event of a running thread holds in every
state of a run. -/
theorem Driven.preserves {P : History → Scheduler σ → Prop} {source : σ} {maxDecisions : Nat}
    {host : Host} {history : History} {state : Scheduler σ}
    (driven : Driven source maxDecisions host history state)
    (begun : P [] ((fresh source maxDecisions).begin host).2)
    (reported : ∀ {history : History} {state : Scheduler σ} {actor : ThreadId} {event : Event},
      Driven source maxDecisions host history state → state.threads.isRunning actor = true →
        P history state → P (history ++ [(actor, event)]) (state.step actor event).2) :
    P history state := by
  unfold Driven at driven
  induction driven with
  | refl => exact begun
  | @report history state after actor event reply steps runs stepped inductionHypothesis =>
      have kept : P (history ++ [(actor, event)]) (state.step actor event).2 :=
        reported steps runs inductionHypothesis
      rw [stepped] at kept
      exact kept

/-- The run states agree with the queues, the joins, the permits and the interrupt flags. -/
structure Agreement (state : Scheduler σ) : Prop where
  lock : ∀ thread lock, state.threads.reason? thread = some (.lock lock) →
    Queued (state.monitors.monitorOf lock).entryQueue thread ∧
      ∃ owner, state.monitors.owner? lock = some owner ∧ owner.same thread = false
  signal : ∀ thread lock, state.threads.reason? thread = some (.signal lock) ↔
    Queued (state.monitors.monitorOf lock).signalQueue thread
  join : ∀ thread joinee,
    (∃ joined, state.threads.reason? thread = some (.join joined) ∧ joined.same joinee = true) ↔
      state.joins.Waits thread joinee
  joinee : ∀ thread joinee, state.joins.Waits thread joinee → state.isLive joinee = true
  park : ∀ thread, state.threads.reason? thread = some .park →
    state.permits.contains thread = false ∧ state.interrupted.contains thread = false
  blocked : ∀ thread, state.threads.isBlocked thread = true →
    ∃ reason, state.threads.reason? thread = some reason
  running : ∀ thread, state.threads.isRunning thread = true →
    (∀ lock, ¬ Queued (state.monitors.monitorOf lock).entryQueue thread ∧
      ¬ Queued (state.monitors.monitorOf lock).signalQueue thread) ∧
    ∀ joinee, ¬ state.joins.Waits thread joinee
  free : ∀ thread lock, Queued (state.monitors.monitorOf lock).entryQueue thread →
    state.monitors.owner? lock = none → state.threads.state? thread = some .runnable
  exited : ∀ thread, state.hasExited thread = true →
    state.isLive thread = false ∧
    (∀ lock, ¬ Queued (state.monitors.monitorOf lock).entryQueue thread ∧
      ¬ Queued (state.monitors.monitorOf lock).signalQueue thread) ∧
    (∀ joinee, ¬ state.joins.Waits thread joinee) ∧
    state.permits.contains thread = false ∧ state.interrupted.contains thread = false

omit [DecisionSource σ] in
theorem Coherent.agreement {state : Scheduler σ} (coherent : state.Coherent) :
    state.Agreement := by
  have sound := coherent.monitors
  have unqueued : ∀ {thread : ThreadId}, state.monitors.entering? thread = none →
      state.monitors.waitingFor? thread = none →
      ∀ lock, ¬ Queued (state.monitors.monitorOf lock).entryQueue thread ∧
        ¬ Queued (state.monitors.monitorOf lock).signalQueue thread :=
    fun notEntering notWaiting lock => ⟨sound.not_queued_of_not_entering notEntering lock,
      sound.not_queued_of_not_waiting notWaiting lock⟩
  constructor
  case lock =>
    intro thread lock reason
    have fits := coherent.fits_of (RunStates.reason?_eq_some_iff.1 reason)
    obtain ⟨owner, held, different⟩ := fits.2.2.2
    refine ⟨(sound.entering_iff thread lock).1 fits.1, owner, ?_, ?_⟩
    · rw [MonitorTable.owner?_eq]
      exact held
    · rw [← Bool.not_eq_true, ThreadId.same_iff_lineage]
      exact different
  case signal =>
    intro thread lock
    rw [RunStates.reason?_eq_some_iff, ← sound.waitingFor_iff]
    constructor
    · intro blocked
      exact (coherent.fits_of blocked).2.1
    · intro awaits
      exact ((coherent.fits thread).of_waitingFor awaits).2
  case join =>
    intro thread joinee
    constructor
    · rintro ⟨joined, reason, same⟩
      have fits := coherent.fits_of (RunStates.reason?_eq_some_iff.1 reason)
      exact (fits.2.2.1 joinee).2 ((ThreadId.same_iff_lineage _ _).1 same).symm
    · intro waits
      obtain ⟨-, -, joined, blocked, same, -⟩ := (coherent.fits thread).of_waits waits
      exact ⟨joined, RunStates.reason?_eq_some_iff.2 blocked,
        (ThreadId.same_iff_lineage _ _).2 same.symm⟩
  case joinee =>
    intro thread joinee waits
    obtain ⟨-, -, joined, -, same, live⟩ := (coherent.fits thread).of_waits waits
    exact (isLive_congr state same).trans live
  case park =>
    intro thread reason
    exact (coherent.fits_of (RunStates.reason?_eq_some_iff.1 reason)).2.2.2
  case blocked =>
    intro thread isBlocked
    obtain ⟨reason, found⟩ := RunStates.isBlocked_iff.1 isBlocked
    cases reason with
    | none => exact False.elim (coherent.fits_of found)
    | some reason => exact ⟨reason, RunStates.reason?_eq_some_iff.2 found⟩
  case running =>
    intro thread runs
    have fits := coherent.fits_of (RunStates.isRunning_iff.1 runs)
    exact ⟨unqueued fits.1 fits.2.1, fits.2.2⟩
  case free =>
    intro thread lock queued unowned
    rw [MonitorTable.owner?_eq] at unowned
    have enters := (sound.entering_iff thread lock).2 queued
    obtain ⟨-, runnable | ⟨-, owner, held, -⟩⟩ := (coherent.fits thread).of_entering enters
    · exact runnable
    · rw [unowned] at held
      cases held
  case exited =>
    intro thread exited
    have absent := coherent.finished thread exited
    have fits := coherent.fits thread
    rw [absent] at fits
    refine ⟨?_, unqueued fits.1 fits.2.1, fits.2.2.1, fits.2.2.2⟩
    rw [← Bool.not_eq_true, isLive_iff, absent]
    rintro ⟨run, impossible⟩
    cases impossible

/-- In every state of a run, and also after the first event that fails, the run states agree
with the queues, the joins, the permits and the interrupt flags: nobody waits for what has come
already, and nobody who has to wait is let run. -/
theorem driven_agreement (source : σ) (maxDecisions : Nat) (host : Host) {history : History}
    {state : Scheduler σ} (driven : Driven source maxDecisions host history state) :
    state.Agreement ∧
      ∀ actor event, state.threads.isRunning actor = true →
        (state.step actor event).2.Agreement := by
  have coherent := driven.coherent
  refine ⟨coherent.agreement, ?_⟩
  intro actor event runs
  exact (coherent.reported (RunStates.isRunning_iff.1 runs) event).1.agreement

/-- The root awaits a signal on a lock that its child holds meanwhile. -/
theorem agreement_of_awaiting_root :
    ∃ state, Driven (Script.ofAnswers []) 4 0
        [(.root, .announce), (.root, .act (.enter ⟨7⟩)), (.root, .act (.wait ⟨7⟩ false)),
          (.child .root 0, .act (.enter ⟨7⟩))] state ∧
      state.threads.reason? .root = some (.signal ⟨7⟩) ∧
      state.threads.isRunning (.child .root 0) = true ∧ state.Agreement ∧
      (state.step (.child .root 0) .exit).2.Agreement := by
  have reached := drive_eq_reach ((fresh (Script.ofAnswers []) 4).begin 0).2
    [(.root, .announce), (.root, .act (.enter ⟨7⟩)), (.root, .act (.wait ⟨7⟩ false)),
      (.child .root 0, .act (.enter ⟨7⟩))] (by decide +kernel)
  have driven : Driven (Script.ofAnswers []) 4 0 _ _ := steps_iff_drive.2 reached
  have agreement := driven_agreement (Script.ofAnswers []) 4 0 driven
  exact ⟨_, driven, by decide +kernel, by decide +kernel, agreement.1,
    agreement.2 _ .exit (by decide +kernel)⟩

end ScheduleSearch.Scheduler
