import ScheduleSearch.Proofs.Monitor.Views
import ScheduleSearch.Proofs.Scheduler.Coherence
import ScheduleSearch.Proofs.Scheduler.Prepare

/-!
# Events keep a state coherent

The part of an event of the running thread that comes before a choice leads from a coherent
state to a coherent one.  If the matter is settled the acting thread still runs, and if a
choice is left nobody does.  This module has the events by which a thread stands back and those
on locks and signals.
-/

namespace ScheduleSearch

/-- An outcome of an event of `actor` after which that thread runs on. -/
def Settled (actor : ThreadId) : Outcome Reply → Prop
  | .ok (.schedule (.resume next)) => next.lineage = actor.lineage
  | .ok (.schedule .quiescent) => False
  | .error (.violation _) => False
  | _ => True

/-- What is known of an event of `actor` before the choice. -/
def Prepared.Ready {σ : Type} (actor : ThreadId) : Prepared σ → Prop
  | .settled outcome after =>
      after.Coherent ∧ after.threads.state? actor = some .running ∧ Settled actor outcome
  | .choosing _ after =>
      after.Coherent ∧ ∀ thread, after.threads.state? thread ≠ some .running

namespace Scheduler

variable {σ : Type} {state after : Scheduler σ} {actor : ThreadId}

theorem Coherent.of_same_threads (coherent : state.Coherent)
    (threads : after.threads = state.threads) (monitors : after.monitors = state.monitors)
    (joins : after.joins = state.joins)
    (unprompted : ∀ thread, state.threads.state? thread = none ∨
        state.threads.state? thread = some (.blocked (some .park)) →
      state.Unprompted thread → after.Unprompted thread)
    (exited : after.exited = state.exited)
    (spawned : after.registry.spawned = state.registry.spawned) : after.Coherent := by
  refine coherent.of_changes ?_ ?_ ?_ ?_ exited spawned
  · rw [monitors]
    exact coherent.monitors
  · intro thread
    rw [threads]
    refine (coherent.fits thread).of_untouched ?_ ?_ ?_ (unprompted thread) ?_ ?_
    · rw [monitors]
    · rw [monitors]
    · intro joinee
      rw [joins]
    · rintro lock - held
      rw [HeldByOther, monitors]
      exact held
    · rintro joinee - live
      rw [isLive, threads]
      exact live
  · rw [threads]
    exact coherent.single
  · intro thread
    rw [threads]

theorem unprompted_erase_permit {thread : ThreadId} (actor : ThreadId)
    (unprompted : state.Unprompted thread) :
    { state with permits := state.permits.erase actor }.Unprompted thread := by
  refine ⟨?_, unprompted.2⟩
  rw [Table.contains_eq_false_iff, Table.get?_erase]
  split
  · rfl
  · exact Table.contains_eq_false_iff.1 unprompted.1

theorem unprompted_erase_flag {thread : ThreadId} (actor : ThreadId)
    (unprompted : state.Unprompted thread) :
    { state with interrupted := state.interrupted.erase actor }.Unprompted thread := by
  refine ⟨unprompted.1, ?_⟩
  rw [Table.contains_eq_false_iff, Table.get?_erase]
  split
  · rfl
  · exact Table.contains_eq_false_iff.1 unprompted.2

theorem Coherent.fits_of (coherent : state.Coherent) {thread : ThreadId} {run : RunState}
    (found : state.threads.state? thread = some run) : state.Fits thread (some run) := by
  rw [← found]
  exact coherent.fits thread

private theorem Coherent.nobody_runs (coherent : state.Coherent)
    (runs : state.threads.state? actor = some .running) {threads : RunStates} {run : RunState}
    (stops : run ≠ .running)
    (turned : ∀ thread, threads.state? thread =
      if thread.lineage = actor.lineage then some run else state.threads.state? thread)
    (thread : ThreadId) : threads.state? thread ≠ some .running := by
  rw [turned]
  by_cases here : thread.lineage = actor.lineage
  · rw [if_pos here]
    exact fun equal => stops (Option.some.inj equal)
  · rw [if_neg here]
    exact coherent.alone runs thread here

theorem stoodBack_of_running (runs : state.threads.state? actor = some .running) :
    state.stoodBack actor = { state with threads := state.threads.setRunnable actor } :=
  if_pos (RunStates.isRunning_iff.2 runs)

private theorem stoodBack_of_not_running (stops : state.threads.state? actor ≠ some .running) :
    state.stoodBack actor = state :=
  if_neg fun runs => stops (RunStates.isRunning_iff.1 runs)

theorem Coherent.ready_standingBack (coherent : state.Coherent)
    (runs : state.threads.state? actor = some .running) :
    (state.standingBack actor).Ready actor := by
  have turned := RunStates.state?_set_of_live runs .runnable
  obtain ⟨-, notWaiting, unjoined⟩ := coherent.fits_of runs
  unfold standingBack
  rw [stoodBack_of_running runs]
  have stops : RunState.runnable ≠ .running := nofun
  refine ⟨?_, coherent.nobody_runs runs stops turned⟩
  exact coherent.of_turn runs turned ⟨notWaiting, unjoined⟩ coherent.monitors (fun _ _ => rfl)
    (fun _ _ => rfl) (fun _ _ _ => Iff.rfl) (fun _ _ => id) (fun _ _ => id)
    nofun rfl rfl

/-- The running thread is blocked for a reason that fits. -/
theorem Coherent.ready_blocked (coherent : state.Coherent)
    (runs : state.threads.state? actor = some .running) {label : String} (reason : BlockReason)
    (turned : ∀ thread, after.threads.state? thread =
      if thread.lineage = actor.lineage then some (.blocked (some reason))
      else state.threads.state? thread)
    (fits : after.Fits actor (some (.blocked (some reason)))) (sound : after.monitors.Sound)
    (enters : ∀ thread, thread.lineage ≠ actor.lineage →
      after.monitors.entering? thread = state.monitors.entering? thread)
    (awaits : ∀ thread, thread.lineage ≠ actor.lineage →
      after.monitors.waitingFor? thread = state.monitors.waitingFor? thread)
    (waits : ∀ thread joinee, thread.lineage ≠ actor.lineage →
      (after.joins.Waits thread joinee ↔ state.joins.Waits thread joinee))
    (unprompted : ∀ thread, thread.lineage ≠ actor.lineage →
      state.Unprompted thread → after.Unprompted thread)
    (owners : ∀ lock owner, (state.monitors.monitorOf lock).owner = some owner →
      (after.monitors.monitorOf lock).owner = some owner)
    (exited : after.exited = state.exited)
    (spawned : after.registry.spawned = state.registry.spawned) :
    (Prepared.choosing label after).Ready actor := by
  have stops : RunState.blocked (some reason) ≠ .running := nofun
  refine ⟨?_, coherent.nobody_runs runs stops turned⟩
  exact coherent.of_turn runs turned fits sound enters awaits waits unprompted owners
    (fun equal => absurd equal stops) exited spawned

/-- The monitors changed, but nobody took or gave up a place in a queue and no lock was let
go. -/
theorem Coherent.of_recorded (coherent : state.Coherent) {monitors : MonitorTable}
    (sound : monitors.Sound) (entering : monitors.entering = state.monitors.entering)
    (waiting : monitors.waiting = state.monitors.waiting)
    (owners : ∀ lock owner, (state.monitors.monitorOf lock).owner = some owner →
      (monitors.monitorOf lock).owner = some owner) :
    { state with monitors := monitors }.Coherent := by
  refine coherent.of_changes sound ?_ coherent.single (fun _ => rfl) rfl rfl
  intro thread
  refine (coherent.fits thread).of_untouched ?_ ?_ (fun _ => Iff.rfl) (fun _ => id) ?_
    (fun _ _ => id)
  · dsimp only
    rw [MonitorTable.entering?, entering]
    rfl
  · dsimp only
    rw [MonitorTable.waitingFor?, waiting]
    rfl
  · rintro lock - ⟨owner, held, different⟩
    exact ⟨owner, owners lock owner held, different⟩

/-- An event after which the acting thread goes on. -/
theorem ready_goOn (coherent : after.Coherent)
    (runs : after.threads.state? actor = some .running) : (Prepared.goOn after).Ready actor :=
  ⟨coherent, runs, trivial⟩

/-- An event that is refused. -/
theorem ready_refused (coherent : state.Coherent)
    (runs : state.threads.state? actor = some .running) (fault : Fault) :
    (Prepared.settled (.error (.fault fault)) state).Ready actor :=
  ⟨coherent, runs, trivial⟩

theorem Coherent.ready_enter (coherent : state.Coherent)
    (runs : state.threads.state? actor = some .running) (lock : LockId) :
    (state.prepareAction actor (.enter lock)).Ready actor := by
  obtain ⟨notEntering, notWaiting, unjoined⟩ := coherent.fits_of runs
  have sound := coherent.monitors.enter lock notEntering notWaiting
  cases owner : (state.monitors.monitorOf lock).owner with
  | none =>
      have effect : state.monitors.enter actor lock = _ := MonitorTable.enter_free owner
      rw [effect] at sound
      simp only [prepareAction, effect]
      refine ready_goOn (coherent.of_recorded sound rfl rfl (MonitorTable.owner_record ?_)) runs
      intro holder held
      rw [owner] at held
      cases held
  | some holder =>
      by_cases same : holder.lineage = actor.lineage
      · have effect := MonitorTable.enter_again owner same
        rw [effect] at sound
        simp only [prepareAction, effect]
        exact ready_goOn
          (coherent.of_recorded sound rfl rfl (MonitorTable.owner_record fun _ => id)) runs
      · have effect := MonitorTable.enter_held owner same
        rw [effect] at sound
        simp only [prepareAction, effect]
        have owners : ∀ other held, (state.monitors.monitorOf other).owner = some held →
            ((state.monitors.enter actor lock).2.monitorOf other).owner = some held := by
          rw [effect]
          exact MonitorTable.owner_record fun _ => id
        rw [effect] at owners
        refine coherent.ready_blocked runs (.lock lock) ?_ ?_ sound ?_ (fun _ _ => rfl)
          (fun _ _ _ => Iff.rfl) (fun _ _ => id) owners rfl rfl
        · exact RunStates.state?_set_of_live runs _
        · refine ⟨?_, notWaiting, unjoined, holder, owners lock holder owner, same⟩
          exact (Table.get?_insert ..).trans (if_pos (ThreadId.compare_eq_iff.2 rfl))
        · intro thread different
          exact MonitorTable.get?_insert_of_ne different

/-! ## Letting a lock go -/

private theorem state?_follow_woken (state : Scheduler σ) (woken : List ThreadId)
    (reason : BlockReason) (thread : ThreadId) :
    (state.follow ⟨[], woken⟩ reason).threads.state? thread =
      if ∃ listed ∈ woken, thread.lineage = listed.lineage then
        (state.threads.state? thread).map RunState.woken
      else state.threads.state? thread :=
  RunStates.state?_foldl_unblock woken thread state.threads

private theorem Coherent.fits_givenUp (coherent : state.Coherent)
    {woken : List ThreadId} {lock : LockId}
    (given : MonitorTable.GivenUp state.monitors after.monitors actor lock woken)
    (joins : after.joins = state.joins) (permits : after.permits = state.permits)
    (interrupted : after.interrupted = state.interrupted)
    (lives : ∀ thread, (after.threads.state? thread).isSome =
      (state.threads.state? thread).isSome)
    {thread : ThreadId} (different : thread.lineage ≠ actor.lineage) :
    after.Fits thread
      (if ∃ listed ∈ woken, thread.lineage = listed.lineage then
        (state.threads.state? thread).map RunState.woken
      else state.threads.state? thread) := by
  have fits := coherent.fits thread
  by_cases enters : after.monitors.entering? thread = some lock
  · rw [if_pos ((given.woken thread).2 enters)]
    have notWaiting : after.monitors.waitingFor? thread = none := by
      rcases given.sound.apart thread with none | none
      · rw [none] at enters
        cases enters
      · exact none
    have queued : state.monitors.entering? thread = some lock ∨
        state.monitors.waitingFor? thread = some lock := by
      rcases given.others thread different with ⟨same, -⟩ | ⟨-, -, awaited⟩
      · exact Or.inl (same.symm.trans enters)
      · exact Or.inr awaited
    obtain ⟨unjoined, waits⟩ := fits.of_queued queued
    have woken : (state.threads.state? thread).map RunState.woken = some .runnable := by
      rcases waits with runnable | ⟨reason, blocked⟩
      · rw [runnable]
        rfl
      · rw [blocked]
        rfl
    rw [woken]
    refine ⟨notWaiting, fun joinee => ?_⟩
    rw [joins]
    exact unjoined joinee
  · rw [if_neg fun listed => enters ((given.woken thread).1 listed)]
    have unchanged : after.monitors.entering? thread = state.monitors.entering? thread ∧
        after.monitors.waitingFor? thread = state.monitors.waitingFor? thread := by
      rcases given.others thread different with same | ⟨entered, -⟩
      · exact same
      · exact absurd entered enters
    refine fits.of_untouched unchanged.1 unchanged.2 ?_ ?_ ?_ ?_
    · intro joinee
      rw [joins]
    · intro _ unprompted
      unfold Unprompted
      rw [permits, interrupted]
      exact unprompted
    · rintro wanted wants ⟨owner, held, foreign⟩
      have elsewhere : wanted ≠ lock := by
        intro same
        rw [same] at wants
        exact enters (unchanged.1.trans wants)
      refine ⟨owner, ?_, foreign⟩
      rw [given.elsewhere wanted elsewhere]
      exact held
    · rintro joinee - live
      rw [isLive_of_state?_isSome lives]
      exact live

/-- The running thread gave a lock up and stands back or awaits a signal. -/
theorem Coherent.of_givenUp (coherent : state.Coherent)
    (runs : state.threads.state? actor = some .running) {woken : List ThreadId} {lock : LockId}
    {run : RunState} (stops : run ≠ .running)
    (given : MonitorTable.GivenUp state.monitors after.monitors actor lock woken)
    (turned : ∀ thread, after.threads.state? thread =
      if thread.lineage = actor.lineage then some run
      else if ∃ listed ∈ woken, thread.lineage = listed.lineage then
        (state.threads.state? thread).map RunState.woken
      else state.threads.state? thread)
    (fits : after.Fits actor (some run))
    (joins : after.joins = state.joins) (permits : after.permits = state.permits)
    (interrupted : after.interrupted = state.interrupted) (exited : after.exited = state.exited)
    (spawned : after.registry.spawned = state.registry.spawned) :
    after.Coherent ∧ ∀ thread, after.threads.state? thread ≠ some .running := by
  have lives : ∀ thread, (after.threads.state? thread).isSome =
      (state.threads.state? thread).isSome := by
    intro thread
    rw [turned]
    by_cases here : thread.lineage = actor.lineage
    · rw [if_pos here, state.threads.state?_congr here, runs]
      rfl
    · rw [if_neg here]
      split
      · exact Option.isSome_map
      · rfl
  have nobody : ∀ thread, after.threads.state? thread ≠ some .running := by
    intro thread
    rw [turned]
    by_cases here : thread.lineage = actor.lineage
    · rw [if_pos here]
      exact fun equal => stops (Option.some.inj equal)
    · rw [if_neg here]
      have alone := coherent.alone runs thread here
      split
      · match found : state.threads.state? thread with
        | none => exact nofun
        | some .running => exact absurd found alone
        | some .runnable => exact nofun
        | some (.blocked reason) => exact nofun
      · exact alone
  refine ⟨?_, nobody⟩
  refine coherent.of_changes given.sound ?_ ?_ lives exited spawned
  · intro thread
    by_cases here : thread.lineage = actor.lineage
    · rw [turned, if_pos here]
      exact (fits_congr here _).2 fits
    · rw [turned, if_neg here]
      exact coherent.fits_givenUp given joins permits interrupted lives here
  · intro first second firstRuns
    exact absurd firstRuns (nobody first)

/-- The running thread gave a lock up and stands back. -/
theorem Coherent.ready_givenUp (coherent : state.Coherent)
    (runs : state.threads.state? actor = some .running) {monitors : MonitorTable}
    {woken : List ThreadId} {lock : LockId} (reason : BlockReason)
    (given : MonitorTable.GivenUp state.monitors monitors actor lock woken)
    (notWaiting : monitors.waitingFor? actor = none) :
    (({ state with monitors := monitors }.follow ⟨[], woken⟩ reason).standingBack actor).Ready
      actor := by
  obtain ⟨-, -, unjoined⟩ := coherent.fits_of runs
  have views := state?_follow_woken { state with monitors := monitors } woken reason
  have still : ({ state with monitors := monitors }.follow ⟨[], woken⟩ reason).threads.state?
      actor = some .running := by
    rw [views]
    dsimp only
    rw [runs]
    split <;> rfl
  unfold standingBack
  rw [stoodBack_of_running still]
  have turned := RunStates.state?_set_of_live still .runnable
  simp only [views] at turned
  have stops : RunState.runnable ≠ .running := nofun
  exact coherent.of_givenUp runs stops given turned ⟨notWaiting, unjoined⟩ rfl rfl rfl rfl rfl

theorem Coherent.ready_leave (coherent : state.Coherent)
    (runs : state.threads.state? actor = some .running) (lock : LockId) :
    (state.prepareAction actor (.leave lock)).Ready actor := by
  obtain ⟨-, notWaiting, -⟩ := coherent.fits_of runs
  by_cases owns : state.monitors.Owns actor lock
  · by_cases inner : 1 < (state.monitors.monitorOf lock).depth
    · have effect := MonitorTable.leave_inner owns inner
      have sound := coherent.monitors.leave effect
      simp only [prepareAction, effect]
      have recorded := coherent.of_recorded sound rfl rfl (MonitorTable.owner_record fun _ => id)
      exact recorded.ready_standingBack runs
    · obtain ⟨woken, after, effect, given, free⟩ :=
        MonitorTable.leave_givesUp coherent.monitors owns notWaiting (by omega)
      simp only [prepareAction, effect]
      exact coherent.ready_givenUp runs (.lock lock) given free
  · have effect := MonitorTable.leave_of_not_owns owns
    simp only [prepareAction, effect]
    exact ready_refused coherent runs _

theorem Coherent.ready_wait (coherent : state.Coherent)
    (runs : state.threads.state? actor = some .running) (lock : LockId) (timed : Bool) :
    (state.prepareAction actor (.wait lock timed)).Ready actor := by
  obtain ⟨notEntering, notWaiting, unjoined⟩ := coherent.fits_of runs
  by_cases owns : state.monitors.Owns actor lock
  · cases timed with
    | true =>
        obtain ⟨woken, after, effect, given, free⟩ :=
          MonitorTable.wait_timed_givesUp coherent.monitors owns notEntering notWaiting
        simp only [prepareAction, effect]
        exact coherent.ready_givenUp runs (.signal lock) given free
    | false =>
        obtain ⟨woken, monitors, effect, given, notEntered, awaits⟩ :=
          MonitorTable.wait_untimed_givesUp coherent.monitors owns notEntering notWaiting
        simp only [prepareAction, effect]
        have notListed : ¬ ∃ listed ∈ woken, actor.lineage = listed.lineage := by
          intro listed
          rw [given.woken actor, notEntered] at listed
          cases listed
        have blocked := RunStates.state?_set_of_live runs (.blocked (some (.signal lock)))
        have turned : ∀ thread, ({ state with monitors := monitors }.follow ⟨[actor], woken⟩
            (.signal lock)).threads.state? thread =
            if thread.lineage = actor.lineage then some (.blocked (some (.signal lock)))
            else if ∃ listed ∈ woken, thread.lineage = listed.lineage then
              (state.threads.state? thread).map RunState.woken
            else state.threads.state? thread := by
          intro thread
          refine (RunStates.state?_foldl_unblock woken thread _).trans ?_
          change (if _ then ((state.threads.set actor _).state? thread).map _
            else (state.threads.set actor _).state? thread) = _
          rw [blocked]
          by_cases here : thread.lineage = actor.lineage
          · rw [if_pos here, if_pos here]
            simp only [here]
            rw [if_neg notListed]
          · rw [if_neg here, if_neg here]
        have stops : RunState.blocked (some (.signal lock)) ≠ .running := by simp
        have stopped : ({ state with monitors := monitors }.follow ⟨[actor], woken⟩
            (.signal lock)).threads.state? actor ≠ some .running := by
          rw [turned, if_pos rfl]
          exact fun equal => stops (Option.some.inj equal)
        unfold standingBack
        rw [stoodBack_of_not_running stopped]
        exact coherent.of_givenUp runs stops given turned ⟨notEntered, awaits, unjoined⟩
          rfl rfl rfl rfl rfl
  · have effect := MonitorTable.wait_of_not_owns timed owns
    simp only [prepareAction, effect]
    exact ready_refused coherent runs _

theorem Coherent.ready_notify (coherent : state.Coherent)
    (runs : state.threads.state? actor = some .running) (lock : LockId) :
    (state.prepareAction actor (.notify lock)).Ready actor := by
  by_cases owns : state.monitors.Owns actor lock
  · have effect := MonitorTable.notify_of_owns owns
    simp only [prepareAction, effect]
    have sound := coherent.monitors.notify effect
    exact ready_goOn
      (coherent.of_recorded sound rfl rfl (MonitorTable.owner_record fun _ => id)) runs
  · have effect := MonitorTable.notify_of_not_owns owns
    simp only [prepareAction, effect]
    exact ready_refused coherent runs _

theorem Coherent.ready_notifyAll (coherent : state.Coherent)
    (runs : state.threads.state? actor = some .running) (lock : LockId) :
    (state.prepareAction actor (.notifyAll lock)).Ready actor := by
  by_cases owns : state.monitors.Owns actor lock
  · have effect := MonitorTable.notifyAll_of_owns owns
    simp only [prepareAction, effect]
    have sound := coherent.monitors.notifyAll effect
    exact ready_goOn
      (coherent.of_recorded sound rfl rfl (MonitorTable.owner_record fun _ => id)) runs
  · have effect := MonitorTable.notifyAll_of_not_owns owns
    simp only [prepareAction, effect]
    exact ready_refused coherent runs _

end Scheduler

end ScheduleSearch
