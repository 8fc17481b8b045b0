import ScheduleSearch.Proofs.Scheduler.Frame

/-!
# Why threads wait

An event can block any thread on a lock.  Any other reason to wait is one that the waiting
thread gave by an event of its own, a wait, a park or a join without a time limit, and it holds
until the thread is woken.
-/

namespace ScheduleSearch

namespace RunStates

variable {allowed : ThreadId → BlockReason → Prop} {before middle after : RunStates}

/-- Every reason to wait that was not there before is an allowed one. -/
def NewReasons (allowed : ThreadId → BlockReason → Prop) (before after : RunStates) : Prop :=
  ∀ thread reason, after.reason? thread = some reason →
    before.reason? thread = some reason ∨ allowed thread reason

private theorem NewReasons.refl (states : RunStates) : NewReasons allowed states states :=
  fun _ _ => Or.inl

private theorem NewReasons.trans (first : NewReasons allowed before middle)
    (second : NewReasons allowed middle after) : NewReasons allowed before after := by
  intro thread reason waits
  rcases second thread reason waits with earlier | new
  · exact first thread reason earlier
  · exact Or.inr new

private theorem newReasons_set (states : RunStates) (thread : ThreadId) (run : RunState)
    (may : ∀ other reason, other.lineage = thread.lineage →
      run = .blocked (some reason) → allowed other reason) :
    NewReasons allowed states (states.set thread run) := by
  intro other reason waits
  rw [reason?_eq_some_iff, state?_set] at waits
  split at waits
  next same =>
    obtain ⟨before, -, blocked⟩ := Option.map_eq_some_iff.1 waits
    exact Or.inr (may other reason same blocked)
  next => exact Or.inl (reason?_eq_some_iff.2 waits)

private theorem newReasons_unblock (states : RunStates) (thread : ThreadId) :
    NewReasons allowed states (states.unblock thread) := by
  intro other reason waits
  rw [reason?_eq_some_iff, state?_unblock] at waits
  split at waits
  · obtain ⟨run, -, blocked⟩ := Option.map_eq_some_iff.1 waits
    cases run <;> cases blocked
  · exact Or.inl (reason?_eq_some_iff.2 waits)

private theorem newReasons_foldl {change : RunStates → ThreadId → RunStates}
    (each : ∀ states thread, NewReasons allowed states (change states thread))
    (threads : List ThreadId) :
    ∀ states : RunStates, NewReasons allowed states (threads.foldl change states) := by
  induction threads with
  | nil => exact NewReasons.refl
  | cons thread rest inductionHypothesis =>
      intro states
      exact (each states thread).trans (inductionHypothesis _)

private theorem newReasons_remove (states : RunStates) (thread : ThreadId) :
    NewReasons allowed states (states.remove thread) := by
  intro other reason waits
  rw [reason?_eq_some_iff, state?_remove] at waits
  split at waits
  · cases waits
  · exact Or.inl (reason?_eq_some_iff.2 waits)

end RunStates

/-- What a thread waits for after an event of its own, but for a lock. -/
def Event.reason? : Event → Option BlockReason
  | .act (.wait lock false) => some (.signal lock)
  | .act .park => some .park
  | .act (.join joinee false) => some (.join joinee)
  | _ => none

/-- An event of `actor` can be why a thread waits: on a lock, or if it is the acting thread. -/
def Event.Explains (event : Event) (actor thread : ThreadId) (reason : BlockReason) : Prop :=
  (∃ lock, reason = .lock lock) ∨
    (thread.lineage = actor.lineage ∧ event.reason? = some reason)

namespace Scheduler

open RunStates

variable {σ : Type} {state : Scheduler σ} {actor : ThreadId}

private theorem reasons_adjust {allowed : ThreadId → BlockReason → Prop} (state : Scheduler σ)
    (p : Prop)
    [Decidable p] {threads : RunStates} (new : NewReasons allowed state.threads threads) :
    NewReasons allowed state.threads
      (if p then { state with threads := threads } else state).threads := by
  split
  · exact new
  · exact .refl _

private theorem reasons_stoodBack {allowed : ThreadId → BlockReason → Prop} (state : Scheduler σ)
    (thread : ThreadId) : NewReasons allowed state.threads (state.stoodBack thread).threads :=
  reasons_adjust state _ (newReasons_set _ thread .runnable nofun)

private theorem reasons_follow {allowed : ThreadId → BlockReason → Prop} (state : Scheduler σ)
    (transition : Transition) {reason : BlockReason}
    (may : ∀ thread ∈ transition.blocked, ∀ other, other.lineage = thread.lineage →
      allowed other reason) :
    NewReasons allowed state.threads (state.follow transition reason).threads := by
  have woken : ∀ states : RunStates,
      NewReasons allowed states (transition.unblocked.foldl unblock states) :=
    newReasons_foldl newReasons_unblock transition.unblocked
  refine NewReasons.trans ?_ (woken _)
  generalize state.threads = states
  revert may
  generalize transition.blocked = blocked
  intro may
  induction blocked generalizing states with
  | nil => exact .refl _
  | cons thread rest inductionHypothesis =>
      refine NewReasons.trans (newReasons_set states thread _ ?_)
        (inductionHypothesis _ fun listed member => may listed (List.mem_cons_of_mem _ member))
      rintro other _ same ⟨rfl⟩
      exact may thread List.mem_cons_self other same

private theorem reasons_grantPermit {allowed : ThreadId → BlockReason → Prop} (state : Scheduler σ)
    (target : ThreadId) : NewReasons allowed state.threads (state.grantPermit target).threads := by
  rw [grantPermit]
  split
  · exact newReasons_unblock _ target
  · exact .refl _

private theorem reasons_setInterrupt {allowed : ThreadId → BlockReason → Prop}
    (locks : ∀ thread lock, allowed thread (.lock lock)) (state : Scheduler σ)
    (target : ThreadId) : NewReasons allowed state.threads (state.setInterrupt target).threads := by
  have moved : NewReasons allowed state.threads
      ((state.monitors.interrupt target).1.unblocked.foldl unblock state.threads) :=
    newReasons_foldl newReasons_unblock _ _
  unfold setInterrupt
  refine NewReasons.trans ?_ (reasons_adjust _ _ (newReasons_unblock _ target))
  split
  next lock wanted =>
    refine moved.trans (reasons_adjust _ _ (newReasons_set _ target _ ?_))
    rintro other _ - ⟨rfl⟩
    exact locks other lock
  next => exact moved

private theorem reasons_setBlocked (state : Scheduler σ) {event : Event} {reason : BlockReason}
    (waits : event.reason? = some reason) :
    NewReasons (event.Explains actor) state.threads (state.threads.setBlocked actor reason) := by
  refine newReasons_set _ actor _ ?_
  rintro other _ same ⟨rfl⟩
  exact Or.inr ⟨same, waits⟩

private theorem reasons_wait (state : Scheduler σ) (actor : ThreadId) (lock : LockId)
    (timed : Bool) :
    NewReasons ((Event.act (.wait lock timed)).Explains actor) state.threads
      (state.prepareAction actor (.wait lock timed)).state.threads := by
  simp only [prepareAction]
  by_cases owns : state.monitors.Owns actor lock
  · cases timed with
    | true =>
        rw [MonitorTable.wait_timed owns]
        refine NewReasons.trans (reasons_follow { state with monitors := _ } _ ?_)
          (reasons_stoodBack _ actor)
        intro thread member
        cases member
    | false =>
        rw [MonitorTable.wait_untimed owns]
        refine NewReasons.trans (reasons_follow { state with monitors := _ } _ ?_)
          (reasons_stoodBack _ actor)
        intro thread member other same
        rw [List.mem_singleton.1 member] at same
        exact Or.inr ⟨same, rfl⟩
  · rw [MonitorTable.wait_of_not_owns timed owns]
    exact .refl _

private theorem reasons_prepareAction (state : Scheduler σ) (actor : ThreadId) (action : Action) :
    NewReasons ((Event.act action).Explains actor) state.threads
      (state.prepareAction actor action).state.threads := by
  have onLock : ∀ thread lock, (Event.act action).Explains actor thread (.lock lock) :=
    fun _ lock => Or.inl ⟨lock, rfl⟩
  cases action with
  | yield site => exact reasons_stoodBack _ actor
  | enter lock =>
      simp only [prepareAction]
      split
      · exact .refl _
      · exact reasons_follow { state with monitors := _ } _ fun _ _ other _ => onLock other lock
  | leave lock =>
      simp only [prepareAction]
      cases state.monitors.leave actor lock with
      | error fault => exact .refl _
      | ok result =>
          exact NewReasons.trans
            (reasons_follow { state with monitors := _ } _ fun _ _ other _ => onLock other lock)
            (reasons_stoodBack _ actor)
  | wait lock timed => exact reasons_wait state actor lock timed
  | notify lock =>
      simp only [prepareAction]
      cases state.monitors.notify actor lock with
      | error fault => exact .refl _
      | ok monitors => exact .refl _
  | notifyAll lock =>
      simp only [prepareAction]
      cases state.monitors.notifyAll actor lock with
      | error fault => exact .refl _
      | ok monitors => exact .refl _
  | park =>
      simp only [prepareAction]
      split
      · exact .refl _
      · split
        · exact .refl _
        · exact reasons_setBlocked state rfl
  | unpark target =>
      simp only [prepareAction]
      cases state.target target with
      | exited => exact .refl _
      | unknown => exact .refl _
      | live => exact reasons_grantPermit state target
  | join joinee timed =>
      simp only [prepareAction]
      cases state.target joinee with
      | exited => exact .refl _
      | unknown => exact .refl _
      | live =>
          cases timed with
          | true => exact reasons_stoodBack _ actor
          | false => exact reasons_setBlocked state rfl
  | interrupt target =>
      simp only [prepareAction]
      cases state.target target with
      | exited => exact .refl _
      | unknown => exact .refl _
      | live => exact reasons_setInterrupt onLock state target

theorem reasons_prepare (state : Scheduler σ) (actor : ThreadId) (event : Event) :
    NewReasons (event.Explains actor) state.threads (state.prepare actor event).state.threads := by
  cases event with
  | announce =>
      intro thread reason waits
      change (state.announce actor).2.threads.reason? thread = some reason at waits
      rw [reason?_eq_some_iff, state?_announce] at waits
      split at waits
      · cases waits
      · exact Or.inl (reason?_eq_some_iff.2 waits)
  | bind host => exact .refl _
  | exit =>
      exact NewReasons.trans (newReasons_foldl newReasons_unblock (state.joins.joinersOf actor) _)
        (newReasons_remove _ actor)
  | choose => exact reasons_stoodBack _ actor
  | readInterrupt clear => cases clear <;> exact .refl _
  | act action => exact reasons_prepareAction state actor action

/-- A thread that is let run and finds the lock held that it wants is blocked on it. -/
theorem reasons_promote {allowed : ThreadId → BlockReason → Prop}
    (locks : ∀ thread lock, allowed thread (.lock lock))
    (nobody : ∀ thread, state.threads.state? thread ≠ some .running) (next : ThreadId) :
    NewReasons allowed state.threads (state.promote next).2.threads := by
  obtain ⟨threads, effect, turned⟩ := promote_eq nobody next
  rw [effect]
  rcases turned with rfl | ⟨lock, rfl⟩
  · exact newReasons_set _ next .running nofun
  · refine (newReasons_set _ next .running nofun).trans (newReasons_set _ next _ ?_)
    rintro other _ - ⟨rfl⟩
    exact locks other lock

variable [DecisionSource σ]

/-- The choice of a thread blocks nobody but on a lock. -/
theorem Coherent.reasons_pick {allowed : ThreadId → BlockReason → Prop}
    (locks : ∀ thread lock, allowed thread (.lock lock)) (coherent : state.Coherent)
    (nobody : ∀ thread, state.threads.state? thread ≠ some .running) (label : String) :
    NewReasons allowed state.threads (state.pick label).2.threads := by
  refine Coherent.pick_preserves
    (P := fun after => NewReasons allowed state.threads after.threads) (fun _ _ new => new) ?_
    label _ coherent nobody (.refl _)
  intro before next _ beforeNobody new
  exact new.trans (reasons_promote locks beforeNobody next)

/-- A thread waits after an event as it did before, or on a lock, or since the event was its
own. -/
theorem Coherent.reasons_step (coherent : state.Coherent)
    (runs : state.threads.state? actor = some .running) (event : Event) :
    NewReasons (event.Explains actor) state.threads (state.step actor event).2.threads := by
  refine coherent.step_preserves
    (P := fun after => NewReasons (event.Explains actor) state.threads after.threads)
    runs (reasons_prepare state actor event) ?_
  intro ready label readyCoherent nobody reasons
  exact reasons.trans (readyCoherent.reasons_pick (fun _ lock => Or.inl ⟨lock, rfl⟩) nobody label)

end Scheduler

end ScheduleSearch
