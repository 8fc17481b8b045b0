import ScheduleSearch.Proofs.Scheduler.Events

/-!
# Permits, joins and interrupts

Events that concern another thread than the acting one keep a state coherent: a permit or an
interrupt either wakes its target or is remembered for it, and a join waits for a live thread.
-/

namespace ScheduleSearch

namespace Scheduler

variable {σ : Type} {state after : Scheduler σ} {actor : ThreadId}

theorem Coherent.ready_park (coherent : state.Coherent)
    (runs : state.threads.state? actor = some .running) :
    (state.prepareAction actor .park).Ready actor := by
  obtain ⟨notEntering, notWaiting, unjoined⟩ := coherent.fits_of runs
  simp only [prepareAction]
  cases permit : state.permits.contains actor with
  | true =>
      rw [if_pos rfl]
      have erased : { state with permits := state.permits.erase actor }.Coherent :=
        coherent.of_same_threads rfl rfl rfl (fun _ _ => unprompted_erase_permit actor) rfl rfl
      exact ready_goOn erased runs
  | false =>
      rw [if_neg Bool.false_ne_true]
      cases flag : state.interrupted.contains actor with
      | true =>
          rw [if_pos rfl]
          exact ready_goOn coherent runs
      | false =>
          rw [if_neg Bool.false_ne_true]
          exact coherent.ready_blocked runs .park (RunStates.state?_set_of_live runs _)
            ⟨notEntering, notWaiting, unjoined, permit, flag⟩ coherent.monitors (fun _ _ => rfl)
            (fun _ _ => rfl) (fun _ _ _ => Iff.rfl) (fun _ _ => id) (fun _ _ => id) rfl rfl

private theorem target_live {thread : ThreadId} (live : state.target thread = .live) :
    ∃ run, state.threads.state? thread = some run := by
  unfold target at live
  split at live
  · cases live
  · split at live
    next holds => exact isLive_iff.1 holds
    next => cases live

private theorem runs_of_turned {target : ThreadId} {run before : RunState}
    (runs : state.threads.state? actor = some .running)
    (found : state.threads.state? target = some before) (stopped : before ≠ .running)
    (turned : ∀ thread, after.threads.state? thread =
      if thread.lineage = target.lineage then some run else state.threads.state? thread) :
    after.threads.state? actor = some .running := by
  rw [turned, if_neg]
  · exact runs
  · intro same
    rw [state.threads.state?_congr same, found] at runs
    exact stopped (Option.some.inj runs)

theorem Coherent.ready_unpark (coherent : state.Coherent)
    (runs : state.threads.state? actor = some .running) (target : ThreadId) :
    (state.prepareAction actor (.unpark target)).Ready actor := by
  simp only [prepareAction]
  cases known : state.target target with
  | exited => exact ready_goOn coherent runs
  | unknown => exact ready_refused coherent runs _
  | live =>
      obtain ⟨run, found⟩ := target_live known
      have fits := coherent.fits_of found
      dsimp only
      unfold grantPermit
      by_cases parked : state.threads.reason? target = some .park
      · rw [if_pos parked]
        have sleeping := RunStates.reason?_eq_some_iff.1 parked
        obtain rfl := Option.some.inj (found.symm.trans sleeping)
        have turned := RunStates.state?_unblock_of_blocked found
        have wasNot : RunState.blocked (some .park) ≠ .running := by simp
        have isNot : RunState.runnable ≠ .running := by simp
        refine ready_goOn ?_ (runs_of_turned runs found wasNot turned)
        exact coherent.of_turn found turned ⟨fits.2.1, fits.2.2.1⟩ coherent.monitors
          (fun _ _ => rfl) (fun _ _ => rfl) (fun _ _ _ => Iff.rfl) (fun _ _ => id) (fun _ _ => id)
          (fun runsOn => absurd runsOn isNot) rfl rfl
      · rw [if_neg parked]
        refine ready_goOn (coherent.of_same_threads rfl rfl rfl ?_ rfl rfl) runs
        intro thread resting unprompted
        have elsewhere : thread.lineage ≠ target.lineage := by
          intro same
          rw [state.threads.state?_congr same, found] at resting
          rcases resting with impossible | sleeping
          · cases impossible
          · rw [sleeping] at found
            exact parked (RunStates.reason?_eq_some_iff.2 found)
        refine ⟨?_, unprompted.2⟩
        rw [← Bool.not_eq_true, KeySet.contains_add, ThreadId.compare_eq_iff]
        rintro (same | holds)
        · exact elsewhere same
        · rw [unprompted.1] at holds
          cases holds

theorem Coherent.ready_join (coherent : state.Coherent)
    (runs : state.threads.state? actor = some .running) (joinee : ThreadId) (timed : Bool) :
    (state.prepareAction actor (.join joinee timed)).Ready actor := by
  obtain ⟨notEntering, notWaiting, unjoined⟩ := coherent.fits_of runs
  simp only [prepareAction]
  cases known : state.target joinee with
  | exited => exact ⟨coherent, runs, rfl⟩
  | unknown => exact ready_refused coherent runs _
  | live =>
      cases timed with
      | true => exact coherent.ready_standingBack runs
      | false =>
          obtain ⟨run, found⟩ := target_live known
          have turned := RunStates.state?_set_of_live runs (.blocked (some (.join joinee)))
          refine coherent.ready_blocked runs (.join joinee) turned ?_ coherent.monitors
            (fun _ _ => rfl) (fun _ _ => rfl) ?_ (fun _ _ => id) (fun _ _ => id) rfl rfl
          · refine ⟨notEntering, notWaiting, ?_, ?_⟩
            · intro other
              dsimp only
              rw [Joins.waits_add, or_iff_left (unjoined other), and_iff_right rfl]
            · rw [isLive_iff]
              change ∃ run, (state.threads.set actor _).state? joinee = some run
              rw [turned]
              split
              · exact ⟨_, rfl⟩
              · exact ⟨run, found⟩
          · intro thread other different
            dsimp only
            rw [Joins.waits_add]
            exact or_iff_right fun same => different same.1

/-- The state in which the interrupt flag of a thread is set and nothing else is done. -/
def flagged (state : Scheduler σ) (target : ThreadId) : Scheduler σ :=
  { state with interrupted := state.interrupted.add target }

private theorem unprompted_flagged {thread target : ThreadId}
    (different : thread.lineage ≠ target.lineage)
    (unprompted : state.Unprompted thread) : (state.flagged target).Unprompted thread := by
  refine ⟨unprompted.1, ?_⟩
  rw [← Bool.not_eq_true, flagged, KeySet.contains_add, ThreadId.compare_eq_iff]
  rintro (same | holds)
  · exact different same
  · rw [unprompted.2] at holds
    cases holds

theorem setInterrupt_resting {target : ThreadId}
    (notEntering : state.monitors.entering? target = none)
    (notWaiting : state.monitors.waitingFor? target = none) :
    state.setInterrupt target =
      if state.threads.reason? target = some .park then
        { state.flagged target with threads := state.threads.unblock target }
      else state.flagged target := by
  unfold setInterrupt
  rw [MonitorTable.interrupt_of_not_waiting notWaiting]
  dsimp only
  rw [notEntering]
  rfl

private theorem setInterrupt_runnable {target : ThreadId}
    (notWaiting : state.monitors.waitingFor? target = none)
    (runnable : state.threads.state? target = some .runnable) :
    state.setInterrupt target = state.flagged target := by
  have notBlocked : state.threads.isBlocked target = false := by
    rw [RunStates.isBlocked, runnable]
    rfl
  have notParked : state.threads.reason? target ≠ some .park :=
    RunStates.reason?_ne runnable (by simp)
  unfold setInterrupt
  rw [MonitorTable.interrupt_of_not_waiting notWaiting]
  dsimp only
  cases state.monitors.entering? target with
  | none => exact if_neg notParked
  | some lock =>
      simp only [unblockAll, Transition.none, List.foldl_nil, notBlocked, Bool.false_eq_true,
        if_false]
      exact if_neg notParked

theorem setInterrupt_entering {target : ThreadId} {lock : LockId}
    (enters : state.monitors.entering? target = some lock)
    (notWaiting : state.monitors.waitingFor? target = none)
    {reason : Option BlockReason}
    (blocked : state.threads.state? target = some (.blocked reason)) :
    state.setInterrupt target =
      { state.flagged target with
        threads := state.threads.setBlocked target (.lock lock) } := by
  have isBlocked := RunStates.isBlocked_iff.2 ⟨reason, blocked⟩
  unfold setInterrupt
  rw [MonitorTable.interrupt_of_not_waiting notWaiting]
  simp only [unblockAll, Transition.none, List.foldl_nil, enters, isBlocked, if_true]
  have waits := RunStates.state?_set_of_live blocked (.blocked (some (.lock lock))) target
  rw [if_pos rfl] at waits
  exact if_neg (RunStates.reason?_ne waits (by simp))

/-- An interrupt of a thread that awaits a signal: it wants to enter the lock again, and is
runnable if the lock is free. -/
private theorem setInterrupt_waiting (sound : state.monitors.Sound) {target : ThreadId}
    {lock : LockId} (awaits : state.monitors.waitingFor? target = some lock)
    {reason : Option BlockReason}
    (blocked : state.threads.state? target = some (.blocked reason)) :
    state.setInterrupt target =
      { state.flagged target with
        threads :=
          if (state.monitors.monitorOf lock).isHeld then
            state.threads.setBlocked target (.lock lock)
          else state.threads.unblock target
        monitors := (state.monitors.interrupt target).2 } := by
  have queued := (sound.waitingFor_iff target lock).1 awaits
  obtain ⟨depth, saved, effect⟩ := MonitorTable.interrupt_of_waiting awaits queued
  have wants : (state.monitors.entering.insert target lock).get? target = some lock := by
    rw [Table.get?_insert]
    exact if_pos (ThreadId.compare_eq_iff.2 rfl)
  unfold setInterrupt
  rw [effect]
  dsimp only
  rw [MonitorTable.entering?_mk, wants]
  dsimp only
  cases held : (state.monitors.monitorOf lock).isHeld with
  | true =>
      have isBlocked := RunStates.isBlocked_iff.2 ⟨reason, blocked⟩
      have waits := RunStates.state?_set_of_live blocked (.blocked (some (.lock lock))) target
      rw [if_pos rfl] at waits
      simp only [unblockAll, Transition.none, List.foldl_nil, isBlocked, if_true]
      exact if_neg (RunStates.reason?_ne waits (by simp))
  | false =>
      have woken := RunStates.state?_unblock_of_blocked blocked target
      rw [if_pos rfl] at woken
      have notBlocked : (state.threads.unblock target).isBlocked target = false := by
        rw [RunStates.isBlocked, woken]
        rfl
      simp only [unblockAll, Transition.unblock, List.foldl_cons, List.foldl_nil, notBlocked,
        Bool.false_eq_true, if_false]
      exact if_neg (RunStates.reason?_ne woken (by simp))

private theorem Coherent.ready_flagged (coherent : state.Coherent)
    (runs : state.threads.state? actor = some .running) {target : ThreadId}
    {before run : RunState} (found : state.threads.state? target = some before)
    {threads : RunStates} {monitors : MonitorTable}
    (turned : ∀ thread, threads.state? thread =
      if thread.lineage = target.lineage then some run else state.threads.state? thread)
    (kept : run = .running ↔ before = .running)
    (fits : { state.flagged target with threads := threads, monitors := monitors }.Fits target
      (some run))
    (sound : monitors.Sound)
    (enters : ∀ thread, thread.lineage ≠ target.lineage →
      monitors.entering? thread = state.monitors.entering? thread)
    (awaits : ∀ thread, thread.lineage ≠ target.lineage →
      monitors.waitingFor? thread = state.monitors.waitingFor? thread)
    (owners : ∀ lock owner, (state.monitors.monitorOf lock).owner = some owner →
      (monitors.monitorOf lock).owner = some owner) :
    (Prepared.goOn
      { state.flagged target with threads := threads, monitors := monitors }).Ready actor := by
  refine ready_goOn ?_ ?_
  · refine coherent.of_turn found turned fits sound enters awaits (fun _ _ _ => Iff.rfl)
      (fun _ different => unprompted_flagged different) owners ?_ rfl rfl
    intro runsOn
    rw [kept.1 runsOn] at found
    exact coherent.alone found
  · apply (turned actor).trans
    by_cases same : actor.lineage = target.lineage
    · rw [if_pos same]
      rw [state.threads.state?_congr same, found] at runs
      rw [kept.2 (Option.some.inj runs)]
    · rw [if_neg same]
      exact runs

theorem Coherent.ready_interrupt (coherent : state.Coherent)
    (runs : state.threads.state? actor = some .running) (target : ThreadId) :
    (state.prepareAction actor (.interrupt target)).Ready actor := by
  simp only [prepareAction]
  cases known : state.target target with
  | exited => exact ready_goOn coherent runs
  | unknown => exact ready_refused coherent runs _
  | live =>
      obtain ⟨run, found⟩ := target_live known
      have fits := coherent.fits_of found
      have same : ∀ thread, state.threads.state? thread =
          if thread.lineage = target.lineage then some run else state.threads.state? thread := by
        intro thread
        split
        next here => rw [state.threads.state?_congr here, found]
        next => rfl
      dsimp only
      cases run with
      | running =>
          have notParked : state.threads.reason? target ≠ some .park :=
            RunStates.reason?_ne found (by simp)
          rw [setInterrupt_resting fits.1 fits.2.1, if_neg notParked]
          exact coherent.ready_flagged runs found same Iff.rfl fits coherent.monitors
            (fun _ _ => rfl) (fun _ _ => rfl) (fun _ _ => id)
      | runnable =>
          rw [setInterrupt_runnable fits.1 found]
          exact coherent.ready_flagged runs found same Iff.rfl fits coherent.monitors
            (fun _ _ => rfl) (fun _ _ => rfl) (fun _ _ => id)
      | blocked reason =>
          cases reason with
          | none => exact False.elim fits
          | some reason =>
              cases reason with
              | lock lock =>
                  rw [setInterrupt_entering fits.1 fits.2.1 found]
                  have turned := RunStates.state?_set_of_live found (.blocked (some (.lock lock)))
                  exact coherent.ready_flagged runs found turned Iff.rfl fits coherent.monitors
                    (fun _ _ => rfl) (fun _ _ => rfl) (fun _ _ => id)
              | signal lock =>
                  rw [setInterrupt_waiting coherent.monitors fits.2.1 found]
                  obtain ⟨moved, enters, notWaiting⟩ :=
                    MonitorTable.interrupt_moves coherent.monitors fits.2.1
                  cases held : (state.monitors.monitorOf lock).isHeld with
                  | true =>
                      have turned :=
                        RunStates.state?_set_of_live found (.blocked (some (.lock lock)))
                      obtain ⟨owner, owned⟩ := Monitor.isHeld_iff.1 held
                      have foreign : owner.lineage ≠ target.lineage := by
                        intro equal
                        have notQueued := (coherent.monitors.monitors lock).owner_not_queued
                          ⟨owner, owned, equal⟩
                        exact notQueued.2
                          ((coherent.monitors.waitingFor_iff target lock).1 fits.2.1)
                      exact coherent.ready_flagged runs found turned (by simp)
                        ⟨enters, notWaiting, fits.2.2, owner, moved.owner lock owner owned, foreign⟩
                        moved.sound moved.entering moved.waiting moved.owner
                  | false =>
                      have turned := RunStates.state?_unblock_of_blocked found
                      exact coherent.ready_flagged runs found turned (by simp)
                        ⟨notWaiting, fits.2.2⟩ moved.sound moved.entering moved.waiting moved.owner
              | park =>
                  have parked := RunStates.reason?_eq_some_iff.2 found
                  rw [setInterrupt_resting fits.1 fits.2.1, if_pos parked]
                  have turned := RunStates.state?_unblock_of_blocked found
                  exact coherent.ready_flagged runs found turned (by simp) ⟨fits.2.1, fits.2.2.1⟩
                    coherent.monitors (fun _ _ => rfl) (fun _ _ => rfl) (fun _ _ => id)
              | join joinee =>
                  have notParked : state.threads.reason? target ≠ some .park :=
                    RunStates.reason?_ne found (by simp)
                  rw [setInterrupt_resting fits.1 fits.2.1, if_neg notParked]
                  exact coherent.ready_flagged runs found same Iff.rfl fits coherent.monitors
                    (fun _ _ => rfl) (fun _ _ => rfl) (fun _ _ => id)

end Scheduler

end ScheduleSearch
