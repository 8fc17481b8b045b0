import ScheduleSearch.Proofs.Scheduler.AnyActor
import ScheduleSearch.Proofs.Scheduler.Runs
import ScheduleSearch.Proofs.Thread.Hosts

/-!
# Threads that are gone

When a thread reaches its exit, it is taken out of all records but one: a lock that it owns at
that moment stays its own.  No later event brings a record of it back, and none takes the lock
away, since only the owner can leave it.
-/

namespace ScheduleSearch.Scheduler

variable {σ : Type}

/-- Running threads report events, whatever comes of them, and host threads start to carry live
threads at any moment. -/
inductive Attended [DecisionSource σ] (first : Scheduler σ) : Scheduler σ → Prop
  | refl : Attended first first
  | report {state : Scheduler σ} {actor : ThreadId} (attended : Attended first state)
      (runs : state.threads.isRunning actor = true) (event : Event) :
      Attended first (state.step actor event).2
  | bind {state : Scheduler σ} {actor : ThreadId} (attended : Attended first state)
      (live : state.isLive actor = true) (host : Host) :
      Attended first (state.step actor (.bind host)).2

section Runs

variable [DecisionSource σ] {first state : Scheduler σ} {actor thread : ThreadId}

private theorem step_bind (live : state.isLive actor = true) (host : Host) :
    state.step actor (.bind host) =
      (.ok .done, { state with registry := state.registry.bind host actor }) :=
  step_of_live live (.bind host)

omit [DecisionSource σ] in
private theorem Coherent.bind (coherent : state.Coherent) (host : Host) (actor : ThreadId) :
    { state with registry := state.registry.bind host actor }.Coherent :=
  coherent.of_same_threads rfl rfl rfl (fun _ _ => id) rfl rfl

private theorem Attended.coherent (attended : Attended first state) (coherent : first.Coherent) :
    state.Coherent := by
  induction attended with
  | refl => exact coherent
  | report _ runs event inductionHypothesis =>
      exact (inductionHypothesis.reported (RunStates.isRunning_iff.1 runs) event).1
  | bind _ live host inductionHypothesis =>
      rw [step_bind live]
      exact inductionHypothesis.bind host _

private theorem Steps.attended {history : History} (steps : Steps first history state) :
    Attended first state := by
  induction steps with
  | refl => exact .refl
  | @report history state after actor event reply steps runs stepped inductionHypothesis =>
      have attended := inductionHypothesis.report runs event
      rw [stepped] at attended
      exact attended

end Runs

/-- The thread was taken out of the records that no run state depends on.  `before` is the
registry in which it was still found. -/
structure Struck (before : Registry) (thread : ThreadId) (state : Scheduler σ) : Prop where
  exited : state.hasExited thread = true
  place : state.places.get? thread = none
  children : state.registry.spawned.get? thread = none
  host : state.registry.hostOf? thread = none
  carriers : ∀ host, state.registry.Carries host thread →
    before.hostOf? thread ≠ some host ∧ before.Carries host thread

section Steps

variable {before : Registry} {state after : Scheduler σ} {actor thread : ThreadId}

private theorem struck_forget (state : Scheduler σ) (thread : ThreadId) :
    Struck state.registry thread (state.forget thread) where
  exited := (hasExited_forget ..).2 (Or.inl rfl)
  place := by
    change (state.places.erase thread).get? thread = none
    rw [Table.get?_erase, if_pos Std.ReflCmp.compare_self]
  children := by
    change (state.registry.forget thread).2.spawned.get? thread = none
    rw [spawned_forget, Table.get?_erase, if_pos Std.ReflCmp.compare_self]
  host := (Registry.hostOf?_forget ..).trans (if_pos rfl)
  carriers := fun _ carries => Registry.carries_forget.1 carries

private theorem Struck.noted (struck : Struck before thread state)
    (different : thread.lineage ≠ actor.lineage) (event : Event) :
    Struck before thread (state.noted actor event) := by
  have elsewhere : ¬ compare thread actor = .eq := fun same =>
    different (ThreadId.compare_eq_iff.1 same)
  match event with
  | .announce =>
      refine ⟨struck.exited, struck.place, ?_, struck.host, struck.carriers⟩
      change (state.registry.spawned.insert actor _).get? thread = none
      rw [Table.get?_insert, if_neg elsewhere, struck.children]
  | .bind host =>
      refine ⟨struck.exited, struck.place, struck.children, ?_, ?_⟩
      · exact (Registry.hostOf?_bind ..).trans ((if_neg different).trans struck.host)
      · intro other carries
        have bound := Registry.carries_bind.1 carries
        split at bound
        next => exact absurd bound.symm different
        next => exact struck.carriers other bound
  | .exit =>
      refine ⟨(hasExited_forget ..).2 (Or.inr struck.exited), ?_, ?_, ?_, ?_⟩
      · change (state.places.erase actor).get? thread = none
        rw [Table.get?_erase, if_neg elsewhere, struck.place]
      · change (state.registry.forget actor).2.spawned.get? thread = none
        rw [spawned_forget, Table.get?_erase, if_neg elsewhere, struck.children]
      · exact (Registry.hostOf?_forget ..).trans ((if_neg different).trans struck.host)
      · intro host carries
        exact struck.carriers host (Registry.carries_forget.1 carries).2
  | .choose => exact struck
  | .readInterrupt clear => exact struck
  | .act action =>
      cases action with
      | yield site =>
          refine ⟨struck.exited, ?_, struck.children, struck.host, struck.carriers⟩
          change (state.places.insert actor site).get? thread = none
          rw [Table.get?_insert, if_neg elsewhere, struck.place]
      | _ => exact struck

private theorem Struck.of_frame (struck : Struck before thread state)
    (frame : StepFrame state after) :
    Struck before thread after where
  exited := by
    rw [hasExited, frame.exited]
    exact struck.exited
  place := by rw [frame.places, struck.place]
  children := by rw [frame.registry, struck.children]
  host := by rw [frame.registry, struck.host]
  carriers := by
    rw [frame.registry]
    exact struck.carriers

variable [DecisionSource σ]

private theorem Struck.step (struck : Struck before thread state) (live : state.isLive actor = true)
    (different : thread.lineage ≠ actor.lineage) (event : Event) :
    Struck before thread (state.step actor event).2 :=
  (struck.noted different event).of_frame (frame_step_anyway live event)

private theorem Coherent.share_of_other (coherent : state.Coherent)
    (runs : state.threads.state? actor = some .running) (different : thread.lineage ≠ actor.lineage)
    (event : Event) (lock : LockId) :
    (state.step actor event).2.monitors.share thread lock = state.monitors.share thread lock := by
  have shares := coherent.share_step runs event thread lock
  have apart : actor.same thread = false := by
    rw [← Bool.not_eq_true, ThreadId.same_iff_lineage]
    exact different.symm
  simpa [Scheduler.exits, Event.exits, Event.entries, apart] using shares

private theorem Coherent.share_exit (coherent : state.Coherent)
    (runs : state.threads.state? actor = some .running) (thread : ThreadId) (lock : LockId) :
    (state.step actor .exit).2.monitors.share thread lock = state.monitors.share thread lock := by
  have shares := coherent.share_step runs .exit thread lock
  have noEntry : Event.exit ≠ .act (.enter lock) := nofun
  have noExit : Event.exit ≠ .act (.leave lock) := nofun
  rwa [Scheduler.exits, Event.exits_of_ne noExit, Event.entries_of_ne noEntry, ite_self] at shares

omit [DecisionSource σ] in
private theorem Coherent.ne_of_exited (coherent : state.Coherent)
    (exited : state.hasExited thread = true)
    (live : state.isLive actor = true) : thread.lineage ≠ actor.lineage := by
  intro same
  obtain ⟨run, found⟩ := isLive_iff.1 ((isLive_congr state same).trans live)
  rw [coherent.finished thread exited] at found
  cases found

/-- What was struck out stays so, and the shares of the thread stay as they are. -/
theorem Attended.struck {first : Scheduler σ} (attended : Attended first state)
    (coherent : first.Coherent) (struck : Struck before thread first) :
    Struck before thread state ∧
      ∀ lock, state.monitors.share thread lock = first.monitors.share thread lock := by
  induction attended with
  | refl => exact ⟨struck, fun _ => rfl⟩
  | @report state actor attended runs event inductionHypothesis =>
      obtain ⟨struck, shares⟩ := inductionHypothesis
      have coherent := attended.coherent coherent
      have running := RunStates.isRunning_iff.1 runs
      have live : state.isLive actor = true := isLive_iff.2 ⟨_, running⟩
      have different := coherent.ne_of_exited struck.exited live
      refine ⟨struck.step live different event, fun lock => ?_⟩
      rw [coherent.share_of_other running different event, shares]
  | @bind state actor attended live host inductionHypothesis =>
      obtain ⟨struck, shares⟩ := inductionHypothesis
      have different := (attended.coherent coherent).ne_of_exited struck.exited live
      refine ⟨struck.step live different (.bind host), fun lock => ?_⟩
      rw [step_bind live]
      exact shares lock

end Steps

/-- All that is left of a thread in `after` when it reached its exit in `before`: it is known to
be gone, and the locks are its own that it owned at its exit.  A host thread still finds it only
if another one took the thread over from it before the exit. -/
structure Departed (before after : Scheduler σ) (thread : ThreadId) : Prop where
  dead : after.isLive thread = false
  exited : after.hasExited thread = true
  unqueued : ∀ lock, ¬ Queued (after.monitors.monitorOf lock).entryQueue thread ∧
    ¬ Queued (after.monitors.monitorOf lock).signalQueue thread
  entering : after.monitors.entering? thread = none
  waiting : after.monitors.waitingFor? thread = none
  joiner : ∀ joinee, ¬ after.joins.Waits thread joinee
  joinee : ∀ joiner, ¬ after.joins.Waits joiner thread
  permit : after.permits.contains thread = false
  interrupt : after.interrupted.contains thread = false
  place : after.places.get? thread = none
  children : after.registry.spawned.get? thread = none
  host : after.registry.hostOf? thread = none
  carriers : ∀ host, after.registry.Carries host thread →
    before.registry.hostOf? thread ≠ some host ∧ before.registry.Carries host thread
  uncarried : before.registry.Paired → ∀ host, ¬ after.registry.Carries host thread
  locks : ∀ lock, after.monitors.Owns thread lock ↔ before.monitors.Owns thread lock

section Departures

variable {before after : Scheduler σ} {thread : ThreadId}

/-- A thread without a place in a queue owns the locks in which it has a share. -/
theorem Coherent.owns_iff_share {state : Scheduler σ} (coherent : state.Coherent)
    (entering : state.monitors.entering? thread = none)
    (waiting : state.monitors.waitingFor? thread = none) (lock : LockId) :
    state.monitors.Owns thread lock ↔ 0 < state.monitors.share thread lock := by
  have sound := coherent.monitors
  constructor
  · intro owns
    obtain ⟨share, positive⟩ := sound.share_of_owns owns
    omega
  · intro positive
    by_contra foreign
    have none := MonitorTable.share_of_absent foreign
      (sound.not_queued_of_not_entering entering lock)
      (sound.not_queued_of_not_waiting waiting lock)
    omega

/-- The records that run states depend on know nothing of a thread that is gone. -/
theorem Coherent.departed (beforeCoherent : before.Coherent)
    (runs : before.threads.state? thread = some .running) (coherent : after.Coherent)
    (struck : Struck before.registry thread after)
    (shares : ∀ lock, after.monitors.share thread lock = before.monitors.share thread lock) :
    Departed before after thread := by
  have agreement := coherent.agreement
  obtain ⟨dead, unqueued, joiner, permit, interrupt⟩ := agreement.exited thread struck.exited
  have fits := coherent.fits thread
  rw [coherent.finished thread struck.exited] at fits
  have running := beforeCoherent.fits_of runs
  constructor
  case dead => exact dead
  case exited => exact struck.exited
  case unqueued => exact unqueued
  case entering => exact fits.1
  case waiting => exact fits.2.1
  case joiner => exact joiner
  case joinee =>
    intro joiner waits
    have live := agreement.joinee joiner thread waits
    rw [dead] at live
    cases live
  case permit => exact permit
  case interrupt => exact interrupt
  case place => exact struck.place
  case children => exact struck.children
  case host => exact struck.host
  case carriers => exact struck.carriers
  case uncarried =>
    intro paired host carries
    obtain ⟨other, carried⟩ := struck.carriers host carries
    exact other ((paired.inverse host thread).1 carried)
  case locks =>
    intro lock
    rw [coherent.owns_iff_share fits.1 fits.2.1, shares,
      beforeCoherent.owns_iff_share running.1 running.2.1]

variable [DecisionSource σ]

/-- A running thread that reaches its exit is gone from all records then and ever after, but for
the locks that it owns. -/
theorem traces_of_departed (source : σ) (maxDecisions : Nat) (host : Host)
    (begun : Attended ((fresh source maxDecisions).begin host).2 before)
    (runs : before.threads.isRunning thread = true)
    (later : Attended (before.step thread .exit).2 after) : Departed before after thread := by
  have coherent := begun.coherent (coherent_begun source maxDecisions host)
  have running := RunStates.isRunning_iff.1 runs
  have exited : (before.step thread .exit).2.Coherent := (coherent.reported running .exit).1
  have struck := (struck_forget before thread).of_frame
    (frame_step_anyway (isLive_iff.2 ⟨_, running⟩) .exit)
  obtain ⟨struckLater, shares⟩ := later.struck exited struck
  refine coherent.departed running (later.coherent exited) struckLater fun lock => ?_
  rw [shares, coherent.share_exit running]

/-- The root exits while it owns a lock that its child then waits for in vain. -/
theorem traces_of_owning_root :
    let begun := ((fresh (Script.ofAnswers []) 9).begin 0).2
    let child : ThreadId := .child .root 0
    let before := begun.reach [(.root, .announce), (.root, .act (.enter ⟨1⟩))]
    let gone := (before.step .root .exit).2
    let after := ((gone.step child (.bind 1)).2.step child (.act (.enter ⟨1⟩))).2
    Attended begun before ∧ before.threads.isRunning .root = true ∧ Attended gone after ∧
      Departed before after .root ∧ after.monitors.Owns .root ⟨1⟩ ∧
      after.threads.reason? child = some (.lock ⟨1⟩) := by
  intro begun child before gone after
  have reached := drive_eq_reach begun [(.root, .announce), (.root, .act (.enter ⟨1⟩))]
    (by decide +kernel)
  have attended : Attended begun before := (steps_iff_drive.2 reached).attended
  have runs : before.threads.isRunning .root = true := by decide +kernel
  have later : Attended gone after :=
    .report (.bind .refl (by decide +kernel) 1) (by decide +kernel) (.act (.enter ⟨1⟩))
  have departed := traces_of_departed (Script.ofAnswers []) 9 0 attended runs later
  have owner : (before.monitors.monitorOf ⟨1⟩).owner = some .root := by decide +kernel
  exact ⟨attended, runs, later, departed, (departed.locks ⟨1⟩).2 ⟨.root, owner, rfl⟩,
    by decide +kernel⟩

/-- A thread that is gone may own a lock. -/
theorem owns_lock_after_exit :
    ∃ before : Scheduler Script,
      Driven (Script.ofAnswers []) 50 0 [(.root, .announce), (.root, .act (.enter ⟨1⟩))] before ∧
      before.threads.isRunning .root = true ∧
      (before.step .root .exit).2.hasExited .root = true ∧
      (before.step .root .exit).2.monitors.Owns .root ⟨1⟩ ∧
      ((before.step .root .exit).2.step (.child .root 0) (.act (.enter ⟨1⟩))).1 =
        .error (.fault (.danglingThreads [⟨.child .root 0, some (.lock ⟨1⟩), none⟩])) := by
  have reached := drive_eq_reach ((fresh (Script.ofAnswers []) 50).begin 0).2
    [(.root, .announce), (.root, .act (.enter ⟨1⟩))] (by decide +kernel)
  exact ⟨_, steps_iff_drive.2 reached, by decide +kernel, by decide +kernel,
    ⟨.root, by decide +kernel, rfl⟩, by decide +kernel⟩

end Departures

end ScheduleSearch.Scheduler
