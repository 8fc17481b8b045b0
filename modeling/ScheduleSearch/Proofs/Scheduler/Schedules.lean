import ScheduleSearch.Proofs.Scheduler.Frame
import ScheduleSearch.Proofs.Thread.Hosts

/-!
# Who runs after an event

In a run at most one thread is running, so that no event ever lets a second one run, and the
answer to an event says who it is: the thread that was chosen, which wants no lock any more, or
the acting thread, which goes on without a decision, or nobody, since no thread is left.
-/

namespace ScheduleSearch

private theorem Registry.isBound_forget (registry : Registry) (thread other : ThreadId) :
    (registry.forget thread).2.isBound other = true ↔
      other.lineage ≠ thread.lineage ∧ registry.isBound other = true := by
  change ((registry.forget thread).2.hostOf? other).isSome = true ↔
    _ ∧ (registry.hostOf? other).isSome = true
  rw [hostOf?_forget]
  by_cases same : other.lineage = thread.lineage
  · simp [same]
  · simp [same]

namespace Scheduler

variable {σ : Type} {state : Scheduler σ} {actor : ThreadId}

/-- The thread is running, and it is the only one. -/
def RunsAlone (state : Scheduler σ) (thread : ThreadId) : Prop :=
  state.threads.runningCount = 1 ∧
    ∀ other, state.threads.isRunning other = true ↔ other.same thread = true

private theorem Coherent.runningCount_le_one (coherent : state.Coherent) :
    state.threads.runningCount ≤ 1 := by
  have distinct := state.threads.threadsWhere_distinct RunState.isRunning
  rw [RunStates.runningCount]
  match listed : state.threads.threadsWhere RunState.isRunning with
  | [] => exact Nat.zero_le 1
  | [only] => exact Nat.le_refl 1
  | first :: second :: rest =>
      exfalso
      have running : ∀ thread ∈ first :: second :: rest,
          state.threads.state? thread = some .running := by
        intro thread member
        rw [← listed] at member
        obtain ⟨run, found, passed⟩ := RunStates.mem_threadsWhere member
        cases run with
        | running => exact found
        | runnable => cases passed
        | blocked reason => cases passed
      have same := coherent.single first second (running first (by simp))
        (running second (by simp))
      rw [listed] at distinct
      have different := (List.pairwise_cons.1 distinct).1 second List.mem_cons_self
      rw [(ThreadId.same_iff_lineage first second).2 same] at different
      cases different

private theorem Coherent.runsAlone (coherent : state.Coherent) {thread : ThreadId}
    (runs : state.threads.state? thread = some .running) : state.RunsAlone thread := by
  constructor
  · have passed : RunState.running.isRunning = true := rfl
    obtain ⟨listed, member, -⟩ := RunStates.exists_mem_threadsWhere runs passed
    have some := List.length_pos_of_mem member
    have few := coherent.runningCount_le_one
    rw [RunStates.runningCount] at few ⊢
    omega
  · intro other
    rw [RunStates.isRunning_iff, ThreadId.same_iff_lineage]
    constructor
    · intro also
      exact coherent.single other thread also runs
    · intro same
      exact (state.threads.state?_congr same).trans runs

/-- The thread wants no lock: it has no place in any entry queue. -/
def WantsNoLock (state : Scheduler σ) (thread : ThreadId) : Prop :=
  state.monitors.entering? thread = none ∧
    ∀ lock, ¬ Queued (state.monitors.monitorOf lock).entryQueue thread

private theorem Coherent.wantsNoLock (coherent : state.Coherent) {thread : ThreadId}
    (runs : state.threads.state? thread = some .running) : state.WantsNoLock thread := by
  have fits := coherent.fits_of runs
  exact ⟨fits.1, coherent.monitors.not_queued_of_not_entering fits.1⟩

/-- Every thread that a host thread carries is live. -/
def Carried (state : Scheduler σ) : Prop :=
  ∀ thread, state.registry.isBound thread = true → state.isLive thread = true

theorem isBound_bind (registry : Registry) (host : Host) (thread other : ThreadId)
    (bound : (registry.bind host thread).isBound other = true) :
    other.lineage = thread.lineage ∨ registry.isBound other = true := by
  change ((registry.bind host thread).hostOf? other).isSome = true at bound
  rw [Registry.hostOf?_bind] at bound
  split at bound
  next same => exact Or.inl same
  next => exact Or.inr bound

theorem carried_begun (source : σ) (maxDecisions : Nat) (host : Host) :
    ((fresh source maxDecisions).begin host).2.Carried := by
  intro thread bound
  rw [isLive_iff, state?_begun]
  rcases isBound_bind Registry.empty host .root thread bound with same | impossible
  · rw [if_pos same]
    exact ⟨_, rfl⟩
  · cases impossible

private theorem Carried.noted (carried : state.Carried) (live : state.isLive actor = true)
    (event : Event) : (state.noted actor event).Carried := by
  intro thread bound
  match event with
  | .announce => exact (isLive_announce ..).2 (Or.inr (carried thread bound))
  | .bind host =>
      rcases isBound_bind state.registry host actor thread bound with same | before
      · exact (isLive_congr state same).trans live
      · exact carried thread before
  | .exit =>
      obtain ⟨different, before⟩ := (Registry.isBound_forget ..).1 bound
      exact (isLive_forget ..).2 ⟨different, carried thread before⟩
  | .choose => exact carried thread bound
  | .readInterrupt clear => exact carried thread bound
  | .act action => cases action <;> exact carried thread bound

variable [DecisionSource σ]

theorem Carried.step (carried : state.Carried) (coherent : state.Coherent)
    (runs : state.threads.state? actor = some .running) (event : Event) :
    (state.step actor event).2.Carried := by
  have frame := coherent.frame_step runs event
  intro thread bound
  rw [frame.registry] at bound
  rw [frame.live]
  exact carried.noted (isLive_iff.2 ⟨_, runs⟩) event thread bound

private theorem Driven.carried {source : σ} {maxDecisions : Nat} {host : Host} {history : History}
    (driven : Driven source maxDecisions host history state) : state.Carried := by
  refine driven.preserves (P := fun _ state => state.Carried)
    (carried_begun source maxDecisions host) ?_
  intro history state actor event driven runs carried
  exact carried.step driven.coherent (RunStates.isRunning_iff.1 runs) event

/-- What the answer to an event of `actor` says of the states before and after it. -/
def Answered (before after : Scheduler σ) (actor : ThreadId) : Schedule → Prop
  | .resume next => after.RunsAlone next ∧ after.WantsNoLock next
  | .goOn =>
      after.RunsAlone actor ∧ after.source = before.source ∧ after.decisions = before.decisions
  | .quiescent => after.isQuiescent = true ∧ after.registry.isEmpty = true

omit [DecisionSource σ] in
private theorem Carried.isEmpty (carried : state.Carried)
    (nobody : ∀ thread, state.threads.state? thread = none) : state.registry.isEmpty = true := by
  refine Table.isEmpty_iff.2 fun thread => ?_
  cases found : state.registry.hosts.get? thread with
  | none => rfl
  | some host =>
      obtain ⟨run, live⟩ := isLive_iff.1 (carried thread (Table.contains_iff.2 ⟨host, found⟩))
      rw [nobody thread] at live
      cases live

/-- An event after which the acting thread goes on takes no decision. -/
theorem Coherent.undecided_of_goOn (coherent : state.Coherent)
    (runs : state.threads.state? actor = some .running) (event : Event)
    (goesOn : (state.step actor event).1 = .ok (.schedule .goOn)) :
    (state.step actor event).2.source = state.source ∧
      (state.step actor event).2.decisions = state.decisions := by
  rw [step_of_live (isLive_iff.2 ⟨_, runs⟩)] at goesOn ⊢
  have undecided := undecided_prepare state actor event
  have ready := coherent.ready runs event
  cases prepared : state.prepare actor event with
  | settled outcome after =>
      rw [prepared] at undecided
      exact undecided
  | choosing label after =>
      exfalso
      rw [prepared] at ready goesOn
      have chosen := (ready.1.chosen_pick ready.2 label).2
      rw [Prepared.complete_choosing] at goesOn
      cases picked : (after.pick label).1 with
      | error halt =>
          rw [picked] at goesOn
          cases goesOn
      | ok schedule =>
          rw [picked] at goesOn chosen
          cases goesOn
          exact chosen

/-- In a run no event lets a second thread run.  At most one thread is running in every state,
and every answer says which one: the thread that was chosen, which has no place in an entry
queue any more, or the acting thread, if no decision was taken, or none, if no thread is left
in the tables. -/
theorem driven_schedules (source : σ) (maxDecisions : Nat) (host : Host) {history : History}
    (driven : Driven source maxDecisions host history state) :
    ((fresh source maxDecisions).begin host).1 = .ok .root ∧
      state.threads.runningCount ≤ 1 ∧
      ∀ actor event outcome after, state.threads.isRunning actor = true →
        state.step actor event = (outcome, after) →
          after.threads.runningCount ≤ 1 ∧
          (∀ violation, outcome ≠ .error (.violation violation)) ∧
          ∀ schedule, outcome = .ok (.schedule schedule) →
            Answered state after actor schedule := by
  have coherent := driven.coherent
  refine ⟨rfl, coherent.runningCount_le_one, ?_⟩
  intro actor event outcome after runs stepped
  have running := RunStates.isRunning_iff.1 runs
  have reported := coherent.reported running event
  have carried := driven.carried.step coherent running event
  have undecided := coherent.undecided_of_goOn running event
  rw [stepped] at reported carried undecided
  obtain ⟨afterCoherent, known⟩ := reported
  refine ⟨afterCoherent.runningCount_le_one, ?_, ?_⟩
  · rintro violation rfl
    exact known
  · rintro schedule rfl
    cases schedule with
    | resume next => exact ⟨afterCoherent.runsAlone known, afterCoherent.wantsNoLock known⟩
    | goOn => exact ⟨afterCoherent.runsAlone known, undecided rfl⟩
    | quiescent => exact ⟨RunStates.isEmpty_iff.2 known, carried.isEmpty known⟩

/-- The root waits on a lock, and its child is chosen. -/
theorem answer_to_awaiting_root :
    ∃ state, Driven (Script.ofAnswers []) 4 0
        [(.root, .announce), (.root, .act (.enter ⟨7⟩))] state ∧
      state.threads.isRunning .root = true ∧
      (state.step .root (.act (.wait ⟨7⟩ false))).1 =
        .ok (.schedule (.resume (.child .root 0))) ∧
      Answered state (state.step .root (.act (.wait ⟨7⟩ false))).2 .root
        (.resume (.child .root 0)) := by
  have reached := drive_eq_reach ((fresh (Script.ofAnswers []) 4).begin 0).2
    [(.root, .announce), (.root, .act (.enter ⟨7⟩))] (by decide +kernel)
  have driven : Driven (Script.ofAnswers []) 4 0 _ _ := steps_iff_drive.2 reached
  obtain ⟨-, -, answers⟩ := driven_schedules (Script.ofAnswers []) 4 0 driven
  obtain ⟨-, -, answered⟩ :=
    answers .root (.act (.wait ⟨7⟩ false)) _ _ (by decide +kernel) rfl
  exact ⟨_, driven, by decide +kernel, by decide +kernel, answered _ (by decide +kernel)⟩

end Scheduler

end ScheduleSearch
