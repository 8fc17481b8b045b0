import ScheduleSearch.Proofs.Scheduler.Lifecycle

/-!
# Choosing keeps a state coherent

With nobody running, the choice of the next thread leads from a coherent state to a coherent
one: either one thread runs, or none is live, or the execution fails and nobody runs.
-/

namespace ScheduleSearch.Scheduler

variable {σ : Type} {state : Scheduler σ}

/-- What is known once a thread was to be chosen. -/
def Chosen (result : Outcome Schedule × Scheduler σ) : Prop :=
  result.2.Coherent ∧
    match result.1 with
    | .ok (.resume next) => result.2.threads.state? next = some .running
    | .ok .goOn => False
    | .ok .quiescent => ∀ thread, result.2.threads.state? thread = none
    | .error (.fault _) => ∀ thread, result.2.threads.state? thread ≠ some .running
    | .error (.violation _) => False

private theorem Coherent.of_resumed (coherent : state.Coherent)
    (nobody : ∀ thread, state.threads.state? thread ≠ some .running) {next : ThreadId}
    (runnable : state.threads.state? next = some .runnable) {monitors : MonitorTable}
    (moved : MonitorTable.Moved state.monitors monitors next)
    (notEntering : monitors.entering? next = none)
    (notWaiting : monitors.waitingFor? next = none) :
    { state with threads := state.threads.set next .running, monitors := monitors }.Coherent := by
  obtain ⟨-, unjoined⟩ := coherent.fits_of runnable
  exact coherent.of_turn runnable (RunStates.state?_set_of_live runnable .running)
    ⟨notEntering, notWaiting, unjoined⟩ moved.sound moved.entering moved.waiting
    (fun _ _ _ => Iff.rfl) (fun _ _ => id) moved.owner (fun _ thread _ => nobody thread) rfl rfl

/-- A runnable thread that is let run runs, unless it wants a lock that another one holds. -/
theorem Coherent.promote (coherent : state.Coherent)
    (nobody : ∀ thread, state.threads.state? thread ≠ some .running) {next : ThreadId}
    (runnable : state.threads.state? next = some .runnable) :
    (∃ monitors, state.monitors.resume next = (.none, monitors) ∧
      state.promote next =
        (.ok true,
          { state with threads := state.threads.set next .running, monitors := monitors }) ∧
      { state with
        threads := state.threads.set next .running
        monitors := monitors }.Coherent) ∨
    ∃ lock, state.monitors.entering? next = some lock ∧ state.HeldByOther lock next ∧
      state.promote next =
        (.ok false,
          { state with
            threads := (state.threads.set next .running).setBlocked next (.lock lock) }) ∧
      { state with
        threads := (state.threads.set next .running).setBlocked next (.lock lock) }.Coherent ∧
      ∀ thread, ((state.threads.set next .running).setBlocked next (.lock lock)).state? thread =
        if thread.lineage = next.lineage then some (.blocked (some (.lock lock)))
        else state.threads.state? thread := by
  obtain ⟨notWaiting, unjoined⟩ := coherent.fits_of runnable
  have set := RunStates.setRunning_of_none nobody next
  cases enters : state.monitors.entering? next with
  | none =>
      left
      have resumed := MonitorTable.resume_of_not_entering enters
      refine ⟨state.monitors, resumed, ?_, ?_⟩
      · unfold Scheduler.promote
        rw [set, resumed]
        rfl
      · exact coherent.of_resumed nobody runnable
          ⟨coherent.monitors, fun _ _ => rfl, fun _ _ => rfl, fun _ _ => id⟩ enters notWaiting
  | some lock =>
      have queued := (coherent.monitors.entering_iff next lock).1 enters
      cases owner : (state.monitors.monitorOf lock).owner with
      | none =>
          left
          obtain ⟨monitors, resumed, moved, notEntering, -⟩ :=
            MonitorTable.resume_moves coherent.monitors enters owner
          have stillNotWaiting : monitors.waitingFor? next = none := by
            have effect := MonitorTable.resume_free enters queued owner
            obtain ⟨depth, -, effect⟩ := effect
            rw [resumed] at effect
            rw [(Prod.mk.inj effect).2]
            exact notWaiting
          refine ⟨monitors, resumed, ?_, ?_⟩
          · unfold Scheduler.promote
            rw [set, resumed]
            rfl
          · exact coherent.of_resumed nobody runnable moved notEntering stillNotWaiting
      | some holder =>
          right
          have held := Monitor.isHeld_iff.2 ⟨holder, owner⟩
          have resumed := MonitorTable.resume_held enters queued held
          have foreign : holder.lineage ≠ next.lineage := fun same =>
            ((coherent.monitors.monitors lock).owner_not_queued ⟨holder, owner, same⟩).1 queued
          have running := RunStates.state?_set_of_live runnable .running
          have runs := running next
          rw [if_pos rfl] at runs
          have turned : ∀ thread,
              ((state.threads.set next .running).setBlocked next (.lock lock)).state? thread =
                if thread.lineage = next.lineage then some (.blocked (some (.lock lock)))
                else state.threads.state? thread := by
            intro thread
            refine (RunStates.state?_set_of_live runs _ thread).trans ?_
            rw [running]
            split <;> rfl
          refine ⟨lock, rfl, ⟨holder, owner, foreign⟩, ?_, ?_, turned⟩
          · unfold Scheduler.promote
            rw [set, resumed]
            dsimp only
            rw [enters]
            rfl
          · exact coherent.of_turn runnable turned
              ⟨enters, notWaiting, unjoined, holder, owner, foreign⟩ coherent.monitors
              (fun _ _ => rfl) (fun _ _ => rfl) (fun _ _ _ => Iff.rfl) (fun _ _ => id)
              (fun _ _ => id) nofun rfl rfl

/-- Only the thread that is let run takes part in what happens to the monitors. -/
theorem monitors_promote (nobody : ∀ thread, state.threads.state? thread ≠ some .running)
    (next : ThreadId) :
    (state.promote next).2.monitors = (state.monitors.resume next).2 := by
  unfold promote
  rw [RunStates.setRunning_of_none nobody next]
  dsimp only
  split <;> rfl

variable [DecisionSource σ]

private theorem ask_cases (state : Scheduler σ) (question : Question) :
    ∃ decisions source,
      (state.ask question).2 = { state with decisions := decisions, source := source } ∧
      match (state.ask question).1 with
      | .ok chosen => ∃ option ∈ question.options, option.lineage = chosen.lineage
      | .error halt => ∃ fault, halt = .fault fault := by
  unfold ask
  dsimp only
  split
  · exact ⟨_, _, rfl, _, rfl⟩
  · split
    next fault source answered => exact ⟨_, source, rfl, fault, rfl⟩
    next chosen source answered =>
      split
      next offered =>
        obtain ⟨option, member, same⟩ := List.any_eq_true.1 offered
        exact ⟨_, source, rfl, option, member, (ThreadId.same_iff_lineage _ _).1 same⟩
      next => exact ⟨_, source, rfl, _, rfl⟩

theorem select_cases (state : Scheduler σ) (label : String) (options : List ThreadId) :
    ∃ decisions source,
      (state.select label options).2 = { state with decisions := decisions, source := source } ∧
      match (state.select label options).1 with
      | .ok chosen => ∃ option ∈ options, option.lineage = chosen.lineage
      | .error halt => ∃ fault, halt = .fault fault := by
  unfold select
  split
  next only => exact ⟨_, _, rfl, only, List.mem_singleton_self only, rfl⟩
  next => exact ask_cases state _

omit [DecisionSource σ] in
theorem Coherent.of_asked (coherent : state.Coherent) (decisions : Nat) (source : σ) :
    { state with decisions := decisions, source := source }.Coherent :=
  coherent.of_same_threads rfl rfl rfl (fun _ _ => id) rfl rfl

omit [DecisionSource σ] in
private theorem Coherent.chosen_stalled (coherent : state.Coherent)
    (nobody : ∀ thread, state.threads.state? thread ≠ some .running) :
    Chosen (state.stalled, state) := by
  refine ⟨coherent, ?_⟩
  by_cases empty : state.threads.isEmpty = true
  · have quiescent : state.stalled = .ok .quiescent := if_pos empty
    rw [quiescent]
    exact RunStates.isEmpty_iff.1 empty
  · have stuck : state.stalled = _ := if_neg empty
    rw [stuck]
    cases state.rootExited with
    | true => exact nobody
    | false => exact nobody

/-- One round keeps a state coherent, and so does the choice as a whole. -/
theorem Coherent.chosen_pickWithin (label : String) (rounds : Nat) :
    ∀ {state : Scheduler σ}, state.Coherent →
      (∀ thread, state.threads.state? thread ≠ some .running) →
        Chosen (pickWithin rounds state label) := by
  induction rounds with
  | zero =>
      intro state coherent nobody
      exact coherent.chosen_stalled nobody
  | succ rounds inductionHypothesis =>
      intro state coherent nobody
      unfold pickWithin
      split
      · exact coherent.chosen_stalled nobody
      next options nonempty =>
        obtain ⟨decisions, source, asked, answer⟩ :=
          select_cases state label state.threads.runnable
        have askedCoherent := coherent.of_asked decisions source
        cases selected : state.select label state.threads.runnable with
        | mk outcome after =>
            rw [selected] at asked answer
            obtain rfl : after = _ := asked
            cases outcome with
            | error halt =>
                obtain ⟨fault, rfl⟩ := answer
                exact ⟨askedCoherent, nobody⟩
            | ok next =>
                obtain ⟨option, member, same⟩ := answer
                have runnable : state.threads.state? next = some .runnable := by
                  rw [← state.threads.state?_congr same]
                  exact RunStates.mem_runnable member
                rcases askedCoherent.promote nobody runnable with
                  ⟨monitors, -, promoted, resumed⟩ | ⟨lock, -, -, promoted, demoted, turned⟩
                · dsimp only
                  rw [promoted]
                  refine ⟨resumed, ?_⟩
                  exact (RunStates.state?_set_of_live runnable .running next).trans (if_pos rfl)
                · dsimp only
                  rw [promoted]
                  apply inductionHypothesis demoted
                  intro thread runs
                  rw [turned] at runs
                  split at runs
                  · cases runs
                  · exact nobody thread runs

theorem Coherent.chosen_pick (coherent : state.Coherent)
    (nobody : ∀ thread, state.threads.state? thread ≠ some .running) (label : String) :
    Chosen (state.pick label) :=
  Coherent.chosen_pickWithin label _ coherent nobody

/-- What asking and letting a runnable thread run preserve, the choice preserves. -/
theorem Coherent.rounds_preserve {P : Scheduler σ → Prop}
    (asked : ∀ {state : Scheduler σ} (decisions : Nat) (source : σ), P state →
      P { state with decisions := decisions, source := source })
    (promoted : ∀ {state : Scheduler σ} {next : ThreadId}, state.Coherent →
      (∀ thread, state.threads.state? thread ≠ some .running) →
      state.threads.state? next = some .runnable → P state → P (state.promote next).2)
    (label : String) (rounds : Nat) :
    ∀ {state : Scheduler σ}, state.Coherent →
      (∀ thread, state.threads.state? thread ≠ some .running) → P state →
        P (pickWithin rounds state label).2 := by
  induction rounds with
  | zero =>
      intro state _ _ holds
      exact holds
  | succ rounds inductionHypothesis =>
      intro state coherent nobody holds
      unfold pickWithin
      split
      · exact holds
      next options nonempty =>
        obtain ⟨decisions, source, after, answer⟩ :=
          select_cases state label state.threads.runnable
        have askedCoherent := coherent.of_asked decisions source
        have askedHolds := asked decisions source holds
        cases selected : state.select label state.threads.runnable with
        | mk outcome answered =>
            rw [selected] at after answer
            obtain rfl : answered = _ := after
            cases outcome with
            | error halt => exact askedHolds
            | ok next =>
                obtain ⟨option, member, same⟩ := answer
                have runnable : state.threads.state? next = some .runnable := by
                  rw [← state.threads.state?_congr same]
                  exact RunStates.mem_runnable member
                have kept : P (Scheduler.promote _ next).2 :=
                  promoted askedCoherent nobody runnable askedHolds
                rcases askedCoherent.promote nobody runnable with
                  ⟨monitors, -, effect, -⟩ | ⟨lock, -, -, effect, demoted, turned⟩
                · rw [effect] at kept
                  dsimp only
                  rw [effect]
                  exact kept
                · rw [effect] at kept
                  dsimp only
                  rw [effect]
                  refine inductionHypothesis demoted ?_ kept
                  intro thread runs
                  rw [turned] at runs
                  split at runs
                  · cases runs
                  · exact nobody thread runs

/-- What asking and letting any thread run preserve, the choice preserves. -/
theorem Coherent.pick_preserves {P : Scheduler σ → Prop}
    (asked : ∀ {state : Scheduler σ} (decisions : Nat) (source : σ), P state →
      P { state with decisions := decisions, source := source })
    (promoted : ∀ {state : Scheduler σ} {next : ThreadId}, state.Coherent →
      (∀ thread, state.threads.state? thread ≠ some .running) → P state →
      P (state.promote next).2)
    (label : String) (rounds : Nat) :
    ∀ {state : Scheduler σ}, state.Coherent →
      (∀ thread, state.threads.state? thread ≠ some .running) → P state →
        P (pickWithin rounds state label).2 :=
  Coherent.rounds_preserve asked (fun coherent nobody _ => promoted coherent nobody) label rounds

/-- What is known after an event of the running thread. -/
def Reported (actor : ThreadId) (result : Outcome Reply × Scheduler σ) : Prop :=
  result.2.Coherent ∧
    match result.1 with
    | .ok (.schedule (.resume next)) => result.2.threads.state? next = some .running
    | .ok (.schedule .quiescent) => ∀ thread, result.2.threads.state? thread = none
    | .ok _ => result.2.threads.state? actor = some .running
    | .error (.fault _) => ∀ thread, result.2.threads.state? thread = some .running →
        thread.lineage = actor.lineage
    | .error (.violation _) => False

private theorem reported_of_ready {actor : ThreadId} {prepared : Prepared σ}
    (ready : prepared.Ready actor) : Reported actor prepared.complete := by
  cases prepared with
  | settled outcome after =>
      obtain ⟨coherent, runs, settled⟩ := ready
      refine ⟨coherent, ?_⟩
      match outcome with
      | .ok (.schedule (.resume next)) => exact (after.threads.state?_congr settled).trans runs
      | .ok (.schedule .goOn) => exact runs
      | .ok (.schedule .quiescent) => exact False.elim settled
      | .ok (.announced child) => exact runs
      | .ok (.flag isSet) => exact runs
      | .ok .done => exact runs
      | .error (.fault fault) => exact fun thread also => coherent.single thread actor also runs
      | .error (.violation violation) => exact False.elim settled
  | choosing label state =>
      obtain ⟨coherent, nobody⟩ := ready
      have chosen := coherent.chosen_pick nobody label
      rw [Prepared.complete_choosing]
      cases picked : state.pick label with
      | mk outcome after =>
          rw [picked] at chosen
          obtain ⟨afterCoherent, known⟩ := chosen
          refine ⟨afterCoherent, ?_⟩
          match outcome with
          | .ok (.resume next) => exact known
          | .ok .goOn => exact False.elim known
          | .ok .quiescent => exact known
          | .error (.fault fault) => exact fun thread runs => absurd runs (known thread)
          | .error (.violation violation) => exact False.elim known

/-- An event of the running thread leads from a coherent state to a coherent one. -/
theorem Coherent.reported (coherent : state.Coherent) {actor : ThreadId}
    (runs : state.threads.state? actor = some .running) (event : Event) :
    Reported actor (state.step actor event) := by
  rw [step_of_live (isLive_iff.2 ⟨_, runs⟩)]
  exact reported_of_ready (coherent.ready runs event)

/-- What holds before the choice and is kept by it holds after an event of the running thread. -/
theorem Coherent.step_preserves {P : Scheduler σ → Prop} (coherent : state.Coherent)
    {actor : ThreadId} (runs : state.threads.state? actor = some .running) {event : Event}
    (prepared : P (state.prepare actor event).state)
    (picked : ∀ {ready : Scheduler σ} (label : String), ready.Coherent →
      (∀ thread, ready.threads.state? thread ≠ some .running) → P ready →
        P (ready.pick label).2) :
    P (state.step actor event).2 := by
  rw [step_of_live (isLive_iff.2 ⟨_, runs⟩)]
  have ready := coherent.ready runs event
  cases shape : state.prepare actor event with
  | settled outcome after =>
      rw [shape] at prepared
      exact prepared
  | choosing label after =>
      rw [shape] at prepared ready
      exact picked label ready.1 ready.2 prepared

end ScheduleSearch.Scheduler
