import ScheduleSearch.Proofs.Monitor.Waiters
import ScheduleSearch.Proofs.Scheduler.Blocking

/-!
# What wakes a thread that waits

A thread that is blocked for some reason stays so through every event of another thread, but
for the event that this kind of waiting is for: its lock is let go, a signal that is pending is
delivered to it, it gets a permit, its joinee exits, or it is interrupted while it is parked or
awaits a signal.
-/

namespace ScheduleSearch

/-- The event interrupts the thread. -/
def Event.Interrupts (event : Event) (thread : ThreadId) : Prop :=
  ∃ target, event = .act (.interrupt target) ∧ target.same thread = true

/-- The event gives the thread a permit. -/
def Event.Unparks (event : Event) (thread : ThreadId) : Prop :=
  ∃ target, event = .act (.unpark target) ∧ target.same thread = true

theorem Event.interrupts_iff {target thread : ThreadId} :
    (Event.act (.interrupt target)).Interrupts thread ↔ target.same thread = true := by
  constructor
  · rintro ⟨aimed, equal, same⟩
    cases equal
    exact same
  · exact fun same => ⟨target, rfl, same⟩

theorem Event.unparks_iff {target thread : ThreadId} :
    (Event.act (.unpark target)).Unparks thread ↔ target.same thread = true := by
  constructor
  · rintro ⟨aimed, equal, same⟩
    cases equal
    exact same
  · exact fun same => ⟨target, rfl, same⟩

namespace RunStates

private theorem state?_foldl_setBlocked (reason : BlockReason) {thread : ThreadId}
    {threads : List ThreadId} (others : ∀ blocked ∈ threads, thread.lineage ≠ blocked.lineage) :
    ∀ states : RunStates,
      (threads.foldl (fun states blocked => states.setBlocked blocked reason) states).state?
        thread = states.state? thread := by
  induction threads with
  | nil =>
      intro states
      rfl
  | cons blocked rest inductionHypothesis =>
      intro states
      rw [List.foldl_cons,
        inductionHypothesis fun listed member => others listed (List.mem_cons_of_mem _ member)]
      exact (state?_set states blocked thread _).trans (if_neg (others blocked List.mem_cons_self))

end RunStates

namespace Scheduler

variable {σ : Type} {state ready : Scheduler σ} {actor thread : ThreadId} {event : Event}
  {reason : BlockReason}

/-- By the event `actor` gives up a lock that it owns, and the lock is free then. -/
def Releases (state : Scheduler σ) (actor : ThreadId) (event : Event) (lock : LockId) : Prop :=
  ∃ call, event.callOf? actor = some call ∧ state.monitors.Frees call actor lock

/-- The event is one for which a thread waits that is blocked for the reason. -/
def Rouses (state : Scheduler σ) (actor : ThreadId) (event : Event) (thread : ThreadId) :
    BlockReason → Prop
  | .lock lock => state.Releases actor event lock
  | .signal lock => event.Interrupts thread ∨
      (state.Releases actor event lock ∧ 0 < (state.monitors.monitorOf lock).pendingSignals)
  | .park => event.Unparks thread ∨ event.Interrupts thread
  | .join joinee => event = .exit ∧ actor.same joinee = true

private theorem state?_stoodBack_of_ne (state : Scheduler σ)
    (other : thread.lineage ≠ actor.lineage) :
    (state.stoodBack actor).threads.state? thread = state.threads.state? thread := by
  unfold stoodBack
  split
  · exact (RunStates.state?_set _ actor thread _).trans (if_neg other)
  · rfl

private theorem state?_setBlocked_of_ne (states : RunStates)
    (other : thread.lineage ≠ actor.lineage)
    (reason : BlockReason) : (states.setBlocked actor reason).state? thread =
      states.state? thread :=
  (RunStates.state?_set states actor thread _).trans (if_neg other)

private theorem state?_follow_of_unlisted (state : Scheduler σ) {transition : Transition}
    (reason : BlockReason)
    (others : ∀ blocked ∈ transition.blocked, thread.lineage ≠ blocked.lineage)
    (unlisted : ¬ ∃ listed ∈ transition.unblocked, thread.lineage = listed.lineage) :
    (state.follow transition reason).threads.state? thread = state.threads.state? thread := by
  refine (RunStates.state?_foldl_unblock transition.unblocked thread _).trans ?_
  rw [if_neg unlisted]
  exact RunStates.state?_foldl_setBlocked reason others state.threads

private theorem eq_of_mem_interrupt {table : MonitorTable} {target listed : ThreadId}
    (member : listed ∈ (table.interrupt target).1.unblocked) : listed = target := by
  unfold MonitorTable.interrupt at member
  split at member
  · cases member
  · dsimp only at member
    split at member
    · cases member
    · split at member
      · cases member
      · split at member
        · cases member
        · exact List.mem_singleton.1 member

private theorem state?_setInterrupt_of_ne (state : Scheduler σ) {target : ThreadId}
    (other : thread.lineage ≠ target.lineage) :
    (state.setInterrupt target).threads.state? thread = state.threads.state? thread := by
  have moved : ((state.monitors.interrupt target).1.unblocked.foldl RunStates.unblock
      state.threads).state? thread = state.threads.state? thread := by
    refine (RunStates.state?_foldl_unblock _ thread _).trans (if_neg ?_)
    rintro ⟨listed, member, same⟩
    rw [eq_of_mem_interrupt member] at same
    exact other same
  have woken : ∀ states : RunStates,
      (states.unblock target).state? thread = states.state? thread := fun states =>
    (RunStates.state?_unblock states target thread).trans (if_neg other)
  unfold setInterrupt
  dsimp only
  split
  · split
    · split
      · exact (woken _).trans ((state?_setBlocked_of_ne _ other _).trans moved)
      · exact (state?_setBlocked_of_ne _ other _).trans moved
    · split
      · exact (woken _).trans moved
      · exact moved
  · split
    · exact (woken _).trans moved
    · exact moved

/-- Whoever is told that a lock is free wanted it, or awaited a signal on it that was pending. -/
theorem Coherent.rouses_of_woken (coherent : state.Coherent) {call : MonitorCall}
    {lock : LockId} {woken : List ThreadId} (called : event.callOf? actor = some call)
    (frees : state.monitors.Frees call actor lock)
    (given : MonitorTable.GivenUp state.monitors (state.monitors.next call) actor lock woken)
    (other : thread.lineage ≠ actor.lineage)
    (waits : state.threads.state? thread = some (.blocked (some reason)))
    (listed : ∃ listed ∈ woken, thread.lineage = listed.lineage) :
    state.Rouses actor event thread reason := by
  have fits := coherent.fits thread
  have enters := (given.woken thread).1 listed
  have releases : state.Releases actor event lock := ⟨call, called, frees⟩
  rcases given.others thread other with ⟨same, -⟩ | ⟨-, gone, awaits⟩
  · rcases (fits.of_entering (same.symm.trans enters)).2 with runnable | ⟨blocked, -⟩
    · cases waits.symm.trans runnable
    · cases waits.symm.trans blocked
      exact releases
  · cases waits.symm.trans (fits.of_waitingFor awaits).2
    rcases coherent.monitors.delivered awaits gone with ⟨target, -, rfl⟩ | ⟨-, -, pending⟩
    · rcases frees.1 with left | ⟨timed, waited⟩
      · cases left
      · cases waited
    · exact Or.inr ⟨releases, pending⟩

/-- The running thread gave a lock up, and what that asks of the run states is done. -/
theorem Coherent.stays_givenUp (coherent : state.Coherent) {call : MonitorCall} {lock : LockId}
    {transition : Transition} {after : MonitorTable} (label : BlockReason)
    (called : event.callOf? actor = some call)
    (attempted : state.monitors.attempt call = .ok (transition, after))
    (shape : call = .leave actor lock ∨ ∃ timed, call = .wait actor lock timed)
    (owns : state.monitors.Owns actor lock)
    (given : MonitorTable.GivenUp state.monitors after actor lock transition.unblocked)
    (own : ∀ blocked ∈ transition.blocked, blocked = actor)
    (other : thread.lineage ≠ actor.lineage)
    (waits : state.threads.state? thread = some (.blocked (some reason))) :
    (({ state with monitors := after }.follow transition label).stoodBack actor).threads.state?
        thread = some (.blocked (some reason)) ∨ state.Rouses actor event thread reason := by
  obtain rfl := MonitorTable.next_of_ok attempted
  by_cases listed : ∃ listed ∈ transition.unblocked, thread.lineage = listed.lineage
  · have free : (state.monitors.next call).owner? lock = none := by
      rw [MonitorTable.owner?_eq]
      exact given.free
    exact Or.inr (coherent.rouses_of_woken called ⟨shape, owns, free⟩ given other waits listed)
  · left
    rw [state?_stoodBack_of_ne _ other, state?_follow_of_unlisted _ label ?_ listed]
    · exact waits
    · intro blocked member
      rw [own blocked member]
      exact other

private theorem Coherent.stays_leave (coherent : state.Coherent)
    (runs : state.threads.state? actor = some .running) (lock : LockId)
    (other : thread.lineage ≠ actor.lineage)
    (waits : state.threads.state? thread = some (.blocked (some reason))) :
    (state.prepareAction actor (.leave lock)).state.threads.state? thread =
        some (.blocked (some reason)) ∨
      state.Rouses actor (.act (.leave lock)) thread reason := by
  obtain ⟨-, notWaiting, -⟩ := coherent.fits_of runs
  by_cases owns : state.monitors.Owns actor lock
  · by_cases inner : 1 < (state.monitors.monitorOf lock).depth
    · simp only [prepareAction, MonitorTable.leave_inner owns inner]
      exact Or.inl ((state?_stoodBack_of_ne _ other).trans waits)
    · obtain ⟨woken, after, effect, given, -⟩ :=
        MonitorTable.leave_givesUp coherent.monitors owns notWaiting (by omega)
      simp only [prepareAction, effect]
      exact coherent.stays_givenUp _ rfl effect (Or.inl rfl) owns given
        (fun _ member => absurd member List.not_mem_nil) other waits
  · simp only [prepareAction, MonitorTable.leave_of_not_owns owns]
    exact Or.inl waits

private theorem Coherent.stays_wait (coherent : state.Coherent)
    (runs : state.threads.state? actor = some .running) (lock : LockId) (timed : Bool)
    (other : thread.lineage ≠ actor.lineage)
    (waits : state.threads.state? thread = some (.blocked (some reason))) :
    (state.prepareAction actor (.wait lock timed)).state.threads.state? thread =
        some (.blocked (some reason)) ∨
      state.Rouses actor (.act (.wait lock timed)) thread reason := by
  obtain ⟨notEntering, notWaiting, -⟩ := coherent.fits_of runs
  by_cases owns : state.monitors.Owns actor lock
  · cases timed with
    | true =>
        obtain ⟨woken, after, effect, given, -⟩ :=
          MonitorTable.wait_timed_givesUp coherent.monitors owns notEntering notWaiting
        simp only [prepareAction, effect]
        exact coherent.stays_givenUp _ rfl effect (Or.inr ⟨true, rfl⟩) owns given
          (fun _ member => absurd member List.not_mem_nil) other waits
    | false =>
        obtain ⟨woken, after, effect, given, -, -⟩ :=
          MonitorTable.wait_untimed_givesUp coherent.monitors owns notEntering notWaiting
        simp only [prepareAction, effect]
        exact coherent.stays_givenUp _ rfl effect (Or.inr ⟨false, rfl⟩) owns given
          (fun _ => List.mem_singleton.1) other waits
  · simp only [prepareAction, MonitorTable.wait_of_not_owns timed owns]
    exact Or.inl waits

/-- An interrupt wakes a thread that is parked or awaits a signal, and no other. -/
theorem Coherent.stays_interrupt (coherent : state.Coherent) (actor target : ThreadId)
    (waits : state.threads.state? thread = some (.blocked (some reason))) :
    (state.setInterrupt target).threads.state? thread = some (.blocked (some reason)) ∨
      state.Rouses actor (.act (.interrupt target)) thread reason := by
  by_cases here : thread.lineage = target.lineage
  · have interrupts : (Event.act (.interrupt target)).Interrupts thread :=
      ⟨target, rfl, (ThreadId.same_iff_lineage _ _).2 here.symm⟩
    rw [state.threads.state?_congr here] at waits
    have fits := coherent.fits_of waits
    rw [RunStates.state?_congr _ here]
    cases reason with
    | lock lock =>
        rw [setInterrupt_entering fits.1 fits.2.1 waits]
        exact Or.inl ((RunStates.state?_set_of_live waits _ target).trans (if_pos rfl))
    | signal lock => exact Or.inr (Or.inl interrupts)
    | park => exact Or.inr (Or.inr interrupts)
    | join joinee =>
        have notParked : state.threads.reason? target ≠ some .park :=
          RunStates.reason?_ne waits (by simp)
        rw [setInterrupt_resting fits.1 fits.2.1, if_neg notParked]
        exact Or.inl waits
  · exact Or.inl ((state?_setInterrupt_of_ne state here).trans waits)

private theorem stays_unpark (state : Scheduler σ) (actor target : ThreadId)
    (waits : state.threads.state? thread = some (.blocked (some reason))) :
    (state.grantPermit target).threads.state? thread = some (.blocked (some reason)) ∨
      state.Rouses actor (.act (.unpark target)) thread reason := by
  unfold grantPermit
  split
  next parked =>
    by_cases here : thread.lineage = target.lineage
    · have sleeping := RunStates.reason?_eq_some_iff.1 parked
      rw [← state.threads.state?_congr here, waits] at sleeping
      cases sleeping
      exact Or.inr (Or.inl ⟨target, rfl, (ThreadId.same_iff_lineage _ _).2 here.symm⟩)
    · exact Or.inl ((RunStates.state?_unblock _ target thread).trans ((if_neg here).trans waits))
  next => exact Or.inl waits

private theorem enter_transition (table : MonitorTable) (thread : ThreadId) (lock : LockId) :
    (table.enter thread lock).1 = .none ∨ (table.enter thread lock).1 = .block thread := by
  unfold MonitorTable.enter
  dsimp only
  split
  · exact Or.inl rfl
  · split
    · exact Or.inl rfl
    · exact Or.inr rfl

private theorem stays_enter (state : Scheduler σ) (lock : LockId)
    (other : thread.lineage ≠ actor.lineage) :
    (state.prepareAction actor (.enter lock)).state.threads.state? thread =
      state.threads.state? thread := by
  simp only [prepareAction]
  split
  · rfl
  · refine state?_follow_of_unlisted { state with monitors := _ } _ ?_ ?_
    · intro blocked member
      rcases enter_transition state.monitors actor lock with nothing | own
      · rw [nothing] at member
        cases member
      · rw [own] at member
        rw [List.mem_singleton.1 member]
        exact other
    · rintro ⟨listed, member, -⟩
      rcases enter_transition state.monitors actor lock with nothing | own
      · rw [nothing] at member
        cases member
      · rw [own] at member
        cases member

private theorem Coherent.stays_prepareAction (coherent : state.Coherent)
    (runs : state.threads.state? actor = some .running) (action : Action)
    (other : thread.lineage ≠ actor.lineage)
    (waits : state.threads.state? thread = some (.blocked (some reason))) :
    (state.prepareAction actor action).state.threads.state? thread =
        some (.blocked (some reason)) ∨
      state.Rouses actor (.act action) thread reason := by
  have blocked : ∀ own : BlockReason, (state.threads.setBlocked actor own).state? thread =
      some (.blocked (some reason)) := fun own =>
    (state?_setBlocked_of_ne state.threads other own).trans waits
  cases action with
  | yield site => exact Or.inl ((state?_stoodBack_of_ne _ other).trans waits)
  | enter lock => exact Or.inl ((stays_enter state lock other).trans waits)
  | leave lock => exact coherent.stays_leave runs lock other waits
  | wait lock timed => exact coherent.stays_wait runs lock timed other waits
  | notify lock =>
      simp only [prepareAction]
      cases state.monitors.notify actor lock with
      | error fault => exact Or.inl waits
      | ok monitors => exact Or.inl waits
  | notifyAll lock =>
      simp only [prepareAction]
      cases state.monitors.notifyAll actor lock with
      | error fault => exact Or.inl waits
      | ok monitors => exact Or.inl waits
  | park =>
      simp only [prepareAction]
      split
      · exact Or.inl waits
      · split
        · exact Or.inl waits
        · exact Or.inl (blocked .park)
  | unpark target =>
      simp only [prepareAction]
      cases state.target target with
      | exited => exact Or.inl waits
      | unknown => exact Or.inl waits
      | live => exact stays_unpark state actor target waits
  | join joinee timed =>
      simp only [prepareAction]
      cases state.target joinee with
      | exited => exact Or.inl waits
      | unknown => exact Or.inl waits
      | live =>
          cases timed with
          | true => exact Or.inl ((state?_stoodBack_of_ne _ other).trans waits)
          | false => exact Or.inl (blocked (.join joinee))
  | interrupt target =>
      simp only [prepareAction]
      cases state.target target with
      | exited => exact Or.inl waits
      | unknown => exact Or.inl waits
      | live => exact coherent.stays_interrupt actor target waits

/-- Before the choice, a blocked thread is as it was unless the event is one that it waits
for. -/
theorem Coherent.stays_prepare (coherent : state.Coherent)
    (runs : state.threads.state? actor = some .running) (event : Event)
    (other : thread.lineage ≠ actor.lineage)
    (waits : state.threads.state? thread = some (.blocked (some reason))) :
    (state.prepare actor event).state.threads.state? thread = some (.blocked (some reason)) ∨
      state.Rouses actor event thread reason := by
  cases event with
  | announce =>
      have live : state.isLive actor = true := isLive_iff.2 ⟨_, runs⟩
      have known : state.Known thread := Or.inl (isLive_iff.2 ⟨_, waits⟩)
      exact Or.inl ((coherent.state?_announce_of_known live known).trans waits)
  | bind host => exact Or.inl waits
  | exit =>
      have after := state?_forget state actor thread
      rw [if_neg other] at after
      by_cases joins : state.joins.Waits thread actor
      · obtain ⟨-, -, joined, blocked, same, -⟩ := (coherent.fits thread).of_waits joins
        rw [waits] at blocked
        cases blocked
        exact Or.inr ⟨rfl, (ThreadId.same_iff_lineage _ _).2 same⟩
      · rw [if_neg joins] at after
        exact Or.inl (after.trans waits)
  | choose => exact Or.inl ((state?_stoodBack_of_ne _ other).trans waits)
  | readInterrupt clear => cases clear <;> exact Or.inl waits
  | act action => exact coherent.stays_prepareAction runs action other waits

variable [DecisionSource σ]

/-- The choice lets no blocked thread run. -/
theorem Coherent.stays_pick (coherent : ready.Coherent)
    (nobody : ∀ thread, ready.threads.state? thread ≠ some .running) (label : String)
    (waits : ready.threads.state? thread = some (.blocked (some reason))) :
    (ready.pick label).2.threads.state? thread = some (.blocked (some reason)) := by
  refine Coherent.rounds_preserve
    (P := fun after => after.threads.state? thread = some (.blocked (some reason)))
    (fun _ _ stays => stays) ?_ label _ coherent nobody waits
  intro before next beforeCoherent beforeNobody runnable stays
  have other : thread.lineage ≠ next.lineage := by
    intro same
    rw [before.threads.state?_congr same, runnable] at stays
    cases stays
  obtain ⟨threads, effect, turned⟩ := promote_eq beforeNobody next
  rw [effect]
  rcases turned with rfl | ⟨lock, rfl⟩
  · exact (RunStates.state?_set _ next thread _).trans ((if_neg other).trans stays)
  · refine (RunStates.state?_set _ next thread _).trans ((if_neg other).trans ?_)
    exact (RunStates.state?_set _ next thread _).trans ((if_neg other).trans stays)

/-! ## Whole events -/

/-- A blocked thread stays blocked for the reason it has, unless an event of another thread is
one that it waits for. -/
theorem Coherent.stays_step (coherent : state.Coherent)
    (runs : state.threads.state? actor = some .running) (event : Event)
    (other : thread.lineage ≠ actor.lineage)
    (waits : state.threads.state? thread = some (.blocked (some reason))) :
    (state.step actor event).2.threads.state? thread = some (.blocked (some reason)) ∨
      state.Rouses actor event thread reason := by
  refine coherent.step_preserves
    (P := fun after => after.threads.state? thread = some (.blocked (some reason)) ∨
      state.Rouses actor event thread reason)
    runs (coherent.stays_prepare runs event other waits) ?_
  intro ready label readyCoherent nobody stays
  exact stays.imp_left (readyCoherent.stays_pick nobody label)

/-- The choice makes no signal pending. -/
theorem Coherent.pending_pick (coherent : ready.Coherent)
    (nobody : ∀ thread, ready.threads.state? thread ≠ some .running) (label : String)
    {lock : LockId}
    (pending : 0 < ((ready.pick label).2.monitors.monitorOf lock).pendingSignals) :
    0 < (ready.monitors.monitorOf lock).pendingSignals ∧
      ((ready.pick label).2.monitors.monitorOf lock).owner =
        (ready.monitors.monitorOf lock).owner := by
  refine Coherent.pick_preserves
    (P := fun after => 0 < (after.monitors.monitorOf lock).pendingSignals →
      0 < (ready.monitors.monitorOf lock).pendingSignals ∧
        (after.monitors.monitorOf lock).owner = (ready.monitors.monitorOf lock).owner)
    (fun _ _ kept => kept) ?_ label _ coherent nobody (fun before => ⟨before, rfl⟩) pending
  intro before next beforeCoherent beforeNobody kept pendingThen
  rw [monitors_promote beforeNobody] at pendingThen ⊢
  obtain ⟨pendingBefore, same⟩ := beforeCoherent.monitors.pending_resume pendingThen
  exact ⟨(kept pendingBefore).1, same.trans (kept pendingBefore).2⟩

omit [DecisionSource σ] in
private theorem Coherent.pending_prepare (coherent : state.Coherent) (actor : ThreadId)
    (event : Event) {lock : LockId}
    (pending : 0 < ((state.prepare actor event).state.monitors.monitorOf lock).pendingSignals) :
    (0 < (state.monitors.monitorOf lock).pendingSignals ∧
        ((state.prepare actor event).state.monitors.monitorOf lock).owner =
          (state.monitors.monitorOf lock).owner) ∨
      (state.monitors.Owns actor lock ∧
        (state.prepare actor event).state.monitors.Owns actor lock ∧
        (event = .act (.notify lock) ∨ event = .act (.notifyAll lock))) := by
  rw [coherent.monitors_prepare] at pending ⊢
  cases called : event.callOf? actor with
  | none =>
      rw [called] at pending
      exact Or.inl ⟨pending, rfl⟩
  | some call =>
      rw [called] at pending
      rcases coherent.monitors.pending_next pending with before | ⟨sender, owns, still, rfl | rfl⟩
      · exact Or.inl before
      · obtain ⟨rfl, sent⟩ := Event.of_callOf? called
        exact Or.inr ⟨owns, still, Or.inl sent⟩
      · obtain ⟨rfl, sent⟩ := Event.of_callOf? called
        exact Or.inr ⟨owns, still, Or.inr sent⟩

/-- A signal that is pending after an event was pending before, on a lock that still has the
same owner, or the event is one by which its owner sent it. -/
theorem Coherent.pending_step (coherent : state.Coherent)
    (runs : state.threads.state? actor = some .running) (event : Event) {lock : LockId}
    (pending : 0 < ((state.step actor event).2.monitors.monitorOf lock).pendingSignals) :
    (0 < (state.monitors.monitorOf lock).pendingSignals ∧
        ((state.step actor event).2.monitors.monitorOf lock).owner =
          (state.monitors.monitorOf lock).owner) ∨
      (state.monitors.Owns actor lock ∧ (state.step actor event).2.monitors.Owns actor lock ∧
        (event = .act (.notify lock) ∨ event = .act (.notifyAll lock))) := by
  refine coherent.step_preserves
    (P := fun after => 0 < (after.monitors.monitorOf lock).pendingSignals →
      (0 < (state.monitors.monitorOf lock).pendingSignals ∧
          (after.monitors.monitorOf lock).owner = (state.monitors.monitorOf lock).owner) ∨
        (state.monitors.Owns actor lock ∧ after.monitors.Owns actor lock ∧
          (event = .act (.notify lock) ∨ event = .act (.notifyAll lock))))
    runs (coherent.pending_prepare actor event) ?_ pending
  intro ready label readyCoherent nobody kept pendingThen
  obtain ⟨before, same⟩ := readyCoherent.pending_pick nobody label pendingThen
  rcases kept before with ⟨earlier, owner⟩ | ⟨owns, still, sent⟩
  · exact Or.inl ⟨earlier, same.trans owner⟩
  · refine Or.inr ⟨owns, ?_, sent⟩
    rw [MonitorTable.Owns, same]
    exact still

end Scheduler

end ScheduleSearch
