import ScheduleSearch.Proofs.Scheduler.Prompts

/-!
# Threads come and go

The root is there from the start, children are announced under numbers that were not given out
before, and a thread that reaches its exit leaves no record behind that could hold up another.
-/

namespace ScheduleSearch

private theorem ThreadId.eq_spawned_of_lineage {thread parent : ThreadId} {seq : Nat}
    (same : thread.lineage = parent.lineage ++ [seq]) :
    ∃ parent' name, thread = spawned parent' seq name ∧ parent'.lineage = parent.lineage := by
  cases thread with
  | root =>
      have length := congrArg List.length same
      simp only [length_lineage, List.length_append, List.length_singleton, depth] at length
      omega
  | spawned parent' seq' name =>
      have parts := List.append_inj' same rfl
      obtain ⟨parents, seqs⟩ := parts
      obtain rfl := List.singleton_inj.1 seqs
      exact ⟨parent', name, rfl, parents⟩

namespace Scheduler

variable {σ : Type} {state after : Scheduler σ} {actor : ThreadId}

theorem state?_begun (source : σ) (maxDecisions : Nat) (host : Host) (thread : ThreadId) :
    ((fresh source maxDecisions).begin host).2.threads.state? thread =
      if thread.lineage = ThreadId.root.lineage then some .running else none :=
  RunStates.state?_insert RunStates.empty .root thread .running

/-- The execution begins in a coherent state. -/
theorem coherent_begun (source : σ) (maxDecisions : Nat) (host : Host) :
    ((fresh source maxDecisions).begin host).2.Coherent := by
  have runs := state?_begun source maxDecisions host
  constructor
  · exact MonitorTable.Sound.of_empty
  · intro thread
    rw [runs]
    split
    · exact ⟨rfl, rfl, Joins.not_waits_empty thread⟩
    · exact ⟨rfl, rfl, Joins.not_waits_empty thread, rfl, rfl⟩
  · intro first second firstRuns secondRuns
    rw [runs] at firstRuns secondRuns
    split at firstRuns
    next firstRoot =>
      split at secondRuns
      next secondRoot => exact firstRoot.trans secondRoot.symm
      next => cases secondRuns
    next => cases firstRuns
  · intro thread exited
    cases exited
  · intro parent seq name known
    rcases known with live | exited
    · obtain ⟨run, found⟩ := isLive_iff.1 live
      rw [runs] at found
      split at found
      next root =>
        have length := congrArg List.length root
        simp only [ThreadId.length_lineage, ThreadId.depth] at length
        omega
      next => cases found
    · cases exited

theorem announce_eq (state : Scheduler σ) (actor : ThreadId) :
    state.announce actor =
      (.ok (.child actor ((state.registry.spawned.get? actor).getD 0)),
        { state with
          registry := { state.registry with
            spawned := state.registry.spawned.insert actor
              ((state.registry.spawned.get? actor).getD 0 + 1) }
          threads := ⟨state.threads.table.insert
            (.child actor ((state.registry.spawned.get? actor).getD 0)) .runnable⟩ }) := rfl

/-- The number under which the next child of a thread is announced. -/
def nextNumber (state : Scheduler σ) (thread : ThreadId) : Nat :=
  (state.registry.spawned.get? thread).getD 0

private theorem nextNumber_congr (state : Scheduler σ) {first second : ThreadId}
    (same : first.lineage = second.lineage) : state.nextNumber first = state.nextNumber second := by
  unfold nextNumber
  rw [Table.get?_congr state.registry.spawned (ThreadId.compare_eq_iff.2 same)]

theorem nextNumber_announce (state : Scheduler σ) (actor thread : ThreadId) :
    (state.announce actor).2.nextNumber thread =
      if thread.lineage = actor.lineage then state.nextNumber actor + 1
      else state.nextNumber thread := by
  rw [announce_eq, nextNumber, Table.get?_insert]
  simp only [ThreadId.compare_eq_iff]
  split
  next => rfl
  next => rfl

theorem state?_announce (state : Scheduler σ) (actor thread : ThreadId) :
    (state.announce actor).2.threads.state? thread =
      if thread.lineage = actor.lineage ++ [state.nextNumber actor] then some .runnable
      else state.threads.state? thread :=
  RunStates.state?_insert state.threads _ thread .runnable

theorem isLive_announce (state : Scheduler σ) (actor thread : ThreadId) :
    (state.announce actor).2.isLive thread = true ↔
      thread.lineage = actor.lineage ++ [state.nextNumber actor] ∨ state.isLive thread = true := by
  rw [isLive_iff, isLive_iff, state?_announce]
  by_cases here : thread.lineage = actor.lineage ++ [state.nextNumber actor]
  · simp [here]
  · simp [here]

theorem known_announce (state : Scheduler σ) (actor thread : ThreadId) :
    (state.announce actor).2.Known thread ↔
      thread.lineage = actor.lineage ++ [state.nextNumber actor] ∨ state.Known thread := by
  unfold Known
  rw [isLive_announce, or_assoc]
  rfl

/-- The number of a new child was not given out before. -/
theorem Coherent.child_unknown (coherent : state.Coherent) (live : state.isLive actor = true)
    {thread : ThreadId} (same : thread.lineage = actor.lineage ++ [state.nextNumber actor]) :
    ¬ state.Known thread := by
  intro known
  obtain ⟨parent, name, rfl, parents⟩ := ThreadId.eq_spawned_of_lineage same
  have below : state.nextNumber actor < state.nextNumber parent :=
    (coherent.numbered parent _ name known).2 ((isLive_congr state parents).trans live)
  rw [state.nextNumber_congr parents] at below
  omega

theorem Coherent.state?_announce_of_known (coherent : state.Coherent)
    (live : state.isLive actor = true) {thread : ThreadId} (known : state.Known thread) :
    (state.announce actor).2.threads.state? thread = state.threads.state? thread := by
  rw [state?_announce]
  exact if_neg fun same => coherent.child_unknown live same known

private theorem Coherent.fits_announce (coherent : state.Coherent)
    (live : state.isLive actor = true) (thread : ThreadId) :
    (state.announce actor).2.Fits thread ((state.announce actor).2.threads.state? thread) := by
  have fits := coherent.fits thread
  rw [state?_announce]
  by_cases here : thread.lineage = actor.lineage ++ [state.nextNumber actor]
  · have absent : state.threads.state? thread = none := by
      cases found : state.threads.state? thread with
      | none => rfl
      | some run =>
          exact absurd (Or.inl (isLive_iff.2 ⟨run, found⟩)) (coherent.child_unknown live here)
    rw [absent] at fits
    rw [if_pos here]
    exact ⟨fits.2.1, fits.2.2.1⟩
  · rw [if_neg here]
    exact fits.of_untouched rfl rfl (fun _ => Iff.rfl) (fun _ => id) (fun _ _ => id)
      fun joinee _ holds => (isLive_announce ..).2 (Or.inr holds)

private theorem Coherent.numbered_announce (coherent : state.Coherent)
    (live : state.isLive actor = true) (parent : ThreadId) (seq : Nat) (name : String)
    (known : (state.announce actor).2.Known (.spawned parent seq name)) :
    (state.announce actor).2.Known parent ∧
      ((state.announce actor).2.isLive parent = true →
        seq < (state.announce actor).2.nextNumber parent) := by
  rw [nextNumber_announce]
  rcases (known_announce ..).1 known with same | before
  · obtain ⟨parents, seqs⟩ := List.append_inj' same rfl
    obtain rfl := List.singleton_inj.1 seqs
    refine ⟨(known_announce ..).2 (Or.inr (Or.inl ((isLive_congr state parents).trans live))), ?_⟩
    rintro -
    rw [if_pos parents]
    omega
  · obtain ⟨parentKnown, below⟩ := coherent.numbered parent seq name before
    refine ⟨(known_announce ..).2 (Or.inr parentKnown), ?_⟩
    intro parentLive
    have parentLiveBefore : state.isLive parent = true :=
      ((isLive_announce ..).1 parentLive).resolve_left fun same =>
        coherent.child_unknown live same parentKnown
    have within : seq < state.nextNumber parent := below parentLiveBefore
    by_cases here : parent.lineage = actor.lineage
    · rw [if_pos here, ← state.nextNumber_congr here]
      omega
    · rw [if_neg here]
      exact within

/-- A child that is announced is coherent with all that is recorded already. -/
theorem Coherent.announce (coherent : state.Coherent) (live : state.isLive actor = true) :
    (state.announce actor).2.Coherent where
  monitors := coherent.monitors
  fits := coherent.fits_announce live
  single := by
    intro first second firstRuns secondRuns
    rw [state?_announce] at firstRuns secondRuns
    split at firstRuns
    · cases firstRuns
    · split at secondRuns
      · cases secondRuns
      · exact coherent.single first second firstRuns secondRuns
  finished := by
    intro thread exited
    rw [coherent.state?_announce_of_known live (Or.inr exited)]
    exact coherent.finished thread exited
  numbered := coherent.numbered_announce live

private theorem Coherent.ready_announce (coherent : state.Coherent)
    (runs : state.threads.state? actor = some .running) :
    (state.prepare actor .announce).Ready actor := by
  have live : state.isLive actor = true := isLive_iff.2 ⟨_, runs⟩
  have settled : state.prepare actor .announce =
      .settled (.ok (.announced (.child actor (state.nextNumber actor))))
        (state.announce actor).2 := rfl
  rw [settled]
  refine ⟨coherent.announce live, ?_, trivial⟩
  rw [coherent.state?_announce_of_known live (Or.inl live)]
  exact runs

/-! ## Exits -/

theorem state?_forget (state : Scheduler σ) (actor thread : ThreadId) :
    (state.forget actor).threads.state? thread =
      if thread.lineage = actor.lineage then none
      else if state.joins.Waits thread actor then (state.threads.state? thread).map RunState.woken
      else state.threads.state? thread := by
  refine (RunStates.state?_remove _ actor thread).trans ?_
  by_cases here : thread.lineage = actor.lineage
  · rw [if_pos here, if_pos here]
  · rw [if_neg here, if_neg here]
    refine (RunStates.state?_foldl_unblock (state.joins.joinersOf actor) thread _).trans ?_
    by_cases waits : state.joins.Waits thread actor
    · rw [if_pos (Joins.mem_joinersOf.2 waits), if_pos waits]
    · rw [if_neg fun listed => waits (Joins.mem_joinersOf.1 listed), if_neg waits]

private theorem waits_forget (state : Scheduler σ) (actor thread joinee : ThreadId) :
    (state.forget actor).joins.Waits thread joinee ↔
      joinee.lineage ≠ actor.lineage ∧ state.joins.Waits thread joinee :=
  Joins.waits_release state.joins actor thread joinee

theorem spawned_forget (registry : Registry) (thread : ThreadId) :
    (registry.forget thread).2.spawned = registry.spawned.erase thread := by
  unfold Registry.forget
  cases registry.hostOf? thread <;> rfl

theorem nextNumber_forget (state : Scheduler σ) (actor thread : ThreadId) :
    (state.forget actor).nextNumber thread =
      if thread.lineage = actor.lineage then 0 else state.nextNumber thread := by
  change ((state.registry.forget actor).2.spawned.get? thread).getD 0 = _
  rw [spawned_forget, Table.get?_erase]
  simp only [ThreadId.compare_eq_iff]
  split
  next => rfl
  next => rfl

theorem hasExited_forget (state : Scheduler σ) (actor thread : ThreadId) :
    (state.forget actor).hasExited thread = true ↔
      thread.lineage = actor.lineage ∨ state.hasExited thread = true := by
  apply KeySet.contains_add.trans
  rw [ThreadId.compare_eq_iff]
  rfl

private theorem unprompted_forget {thread : ThreadId}
    (unprompted : thread.lineage = actor.lineage ∨ state.Unprompted thread) :
    (state.forget actor).Unprompted thread := by
  have erased : ∀ keys : KeySet ThreadId,
      thread.lineage = actor.lineage ∨ keys.contains thread = false →
        (Table.erase keys actor).contains thread = false := by
    intro keys absent
    rw [Table.contains_eq_false_iff, Table.get?_erase]
    simp only [ThreadId.compare_eq_iff]
    split
    next => rfl
    next different => exact Table.contains_eq_false_iff.1 (absent.resolve_left different)
  exact ⟨erased state.permits (unprompted.imp_right And.left),
    erased state.interrupted (unprompted.imp_right And.right)⟩

theorem isLive_forget (state : Scheduler σ) (actor thread : ThreadId) :
    (state.forget actor).isLive thread = true ↔
      thread.lineage ≠ actor.lineage ∧ state.isLive thread = true := by
  rw [isLive_iff, isLive_iff, state?_forget]
  by_cases here : thread.lineage = actor.lineage
  · simp [here]
  · rw [if_neg here]
    by_cases waits : state.joins.Waits thread actor
    · rw [if_pos waits]
      cases state.threads.state? thread <;> simp [here]
    · rw [if_neg waits]
      simp [here]

theorem known_forget (live : state.isLive actor = true) (thread : ThreadId) :
    (state.forget actor).Known thread ↔ state.Known thread := by
  unfold Known
  rw [isLive_forget, hasExited_forget]
  by_cases here : thread.lineage = actor.lineage
  · simp [here, (isLive_congr state here).trans live]
  · simp [here]

private theorem Coherent.not_running_forget (coherent : state.Coherent)
    (runs : state.threads.state? actor = some .running) (thread : ThreadId) :
    (state.forget actor).threads.state? thread ≠ some .running := by
  rw [state?_forget]
  by_cases here : thread.lineage = actor.lineage
  · rw [if_pos here]
    simp
  · rw [if_neg here]
    have alone := coherent.alone runs thread here
    split
    next =>
      cases found : state.threads.state? thread with
      | none => simp
      | some run =>
          cases run with
          | running => exact absurd found alone
          | runnable => simp [RunState.woken]
          | blocked reason => simp [RunState.woken, RunState.isBlocked]
    next => exact alone

private theorem Coherent.fits_forget (coherent : state.Coherent)
    (runs : state.threads.state? actor = some .running) (thread : ThreadId) :
    (state.forget actor).Fits thread ((state.forget actor).threads.state? thread) := by
  rw [state?_forget]
  by_cases here : thread.lineage = actor.lineage
  · obtain ⟨notEntering, notWaiting, unjoined⟩ := (fits_congr here _).2 (coherent.fits_of runs)
    rw [if_pos here]
    refine ⟨notEntering, notWaiting, ?_, unprompted_forget (Or.inl here)⟩
    intro joinee waits
    exact unjoined joinee ((waits_forget ..).1 waits).2
  · rw [if_neg here]
    have fits := coherent.fits thread
    by_cases waits : state.joins.Waits thread actor
    · obtain ⟨notWaiting, only, joined, blocked, -⟩ := fits.of_waits waits
      rw [if_pos waits, blocked]
      refine ⟨notWaiting, ?_⟩
      intro joinee also
      obtain ⟨different, before⟩ := (waits_forget ..).1 also
      exact different (only joinee before)
    · rw [if_neg waits]
      have elsewhere : ∀ joinee, state.joins.Waits thread joinee →
          joinee.lineage ≠ actor.lineage :=
        fun joinee holds same => waits ((Joins.waits_congr rfl same).1 holds)
      refine fits.of_untouched rfl rfl ?_ (fun _ holds => unprompted_forget (Or.inr holds))
        (fun _ _ => id) ?_
      · intro joinee
        rw [waits_forget]
        exact and_iff_right_of_imp (elsewhere joinee)
      · intro joinee holds alive
        exact (isLive_forget ..).2 ⟨elsewhere joinee holds, alive⟩

private theorem Coherent.numbered_forget (coherent : state.Coherent)
    (live : state.isLive actor = true) (parent : ThreadId) (seq : Nat) (name : String)
    (known : (state.forget actor).Known (.spawned parent seq name)) :
    (state.forget actor).Known parent ∧
      ((state.forget actor).isLive parent = true →
        seq < (state.forget actor).nextNumber parent) := by
  obtain ⟨parentKnown, below⟩ :=
    coherent.numbered parent seq name ((known_forget live _).1 known)
  refine ⟨(known_forget live _).2 parentKnown, ?_⟩
  intro parentLive
  obtain ⟨different, alive⟩ := (isLive_forget ..).1 parentLive
  rw [nextNumber_forget, if_neg different]
  exact below alive

private theorem Coherent.ready_exit (coherent : state.Coherent)
    (runs : state.threads.state? actor = some .running) :
    (state.prepare actor .exit).Ready actor := by
  refine ⟨?_, coherent.not_running_forget runs⟩
  constructor
  case monitors => exact coherent.monitors
  case fits => exact coherent.fits_forget runs
  case single =>
    intro first second firstRuns
    exact absurd firstRuns (coherent.not_running_forget runs first)
  case finished =>
    intro thread exited
    rw [state?_forget]
    rcases (hasExited_forget ..).1 exited with here | before
    · rw [if_pos here]
    · rw [coherent.finished thread before]
      split
      next => rfl
      next => exact ite_self none
  case numbered => exact coherent.numbered_forget (isLive_iff.2 ⟨_, runs⟩)

private theorem Coherent.ready_action (coherent : state.Coherent)
    (runs : state.threads.state? actor = some .running) (action : Action) :
    (state.prepareAction actor action).Ready actor := by
  cases action with
  | yield site =>
      have placed : { state with places := state.places.insert actor site }.Coherent :=
        coherent.of_same_threads rfl rfl rfl (fun _ _ => id) rfl rfl
      exact placed.ready_standingBack runs
  | enter lock => exact coherent.ready_enter runs lock
  | leave lock => exact coherent.ready_leave runs lock
  | wait lock timed => exact coherent.ready_wait runs lock timed
  | notify lock => exact coherent.ready_notify runs lock
  | notifyAll lock => exact coherent.ready_notifyAll runs lock
  | park => exact coherent.ready_park runs
  | unpark target => exact coherent.ready_unpark runs target
  | join joinee timed => exact coherent.ready_join runs joinee timed
  | interrupt target => exact coherent.ready_interrupt runs target

/-- Before the choice, an event of the running thread leads to a coherent state. -/
theorem Coherent.ready (coherent : state.Coherent)
    (runs : state.threads.state? actor = some .running) (event : Event) :
    (state.prepare actor event).Ready actor := by
  cases event with
  | announce => exact coherent.ready_announce runs
  | bind host =>
      have bound : { state with registry := state.registry.bind host actor }.Coherent :=
        coherent.of_same_threads rfl rfl rfl (fun _ _ => id) rfl rfl
      exact ⟨bound, runs, trivial⟩
  | exit => exact coherent.ready_exit runs
  | choose => exact coherent.ready_standingBack runs
  | readInterrupt clear =>
      cases clear with
      | false => exact ⟨coherent, runs, trivial⟩
      | true =>
          have cleared :
              { state with interrupted := state.interrupted.erase actor }.Coherent :=
            coherent.of_same_threads rfl rfl rfl (fun _ _ => unprompted_erase_flag actor) rfl rfl
          exact ⟨cleared, runs, trivial⟩
  | act action => exact coherent.ready_action runs action

end Scheduler

end ScheduleSearch
