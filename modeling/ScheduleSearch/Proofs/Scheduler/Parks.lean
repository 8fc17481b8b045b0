import ScheduleSearch.Proofs.Scheduler.Interrupts

/-!
# Parks and what ends them

A park is passed at once, or it blocks the thread until the first unpark or interrupt that is
aimed at the thread; then it is resolved.  What counts for the next park is what was reported
since: it is passed if the thread was unparked, however often, or if its interrupt flag is set.
No unpark is lost, and none counts for two parks.
-/

namespace ScheduleSearch

/-- By the event the thread parks. -/
def Event.Parks (event : Event) (actor thread : ThreadId) : Prop :=
  actor.same thread = true ∧ event = .act .park

/-- The event unparks or interrupts the thread. -/
def Event.Prompts (event : Event) (thread : ThreadId) : Prop :=
  event.Unparks thread ∨ event.Interrupts thread

/-- The event leaves all permits alone, but for those of a thread that exits. -/
def Event.sparesPermits : Event → Bool
  | .act .park => false
  | .act (.unpark _) => false
  | _ => true

/-- Some event of the history unparks the thread. -/
def History.Unparked (history : History) (thread : ThreadId) : Prop :=
  ∃ report ∈ history, report.2.Unparks thread

private theorem History.not_unparked_nil (thread : ThreadId) : ¬ History.Unparked [] thread := by
  rintro ⟨report, member, -⟩
  cases member

private theorem History.unparked_concat (history : History) (actor : ThreadId) (event : Event)
    (thread : ThreadId) :
    History.Unparked (history ++ [(actor, event)]) thread ↔
      event.Unparks thread ∨ history.Unparked thread := by
  constructor
  · rintro ⟨report, member, unparks⟩
    rcases List.mem_append.1 member with earlier | last
    · exact Or.inr ⟨report, earlier, unparks⟩
    · rw [List.mem_singleton.1 last] at unparks
      exact Or.inl unparks
  · rintro (unparks | ⟨report, earlier, unparks⟩)
    · exact ⟨_, List.mem_append_right _ (List.mem_singleton_self _), unparks⟩
    · exact ⟨report, List.mem_append_left _ earlier, unparks⟩

namespace Scheduler

variable {σ : Type} [DecisionSource σ] {state after : Scheduler σ} {actor thread : ThreadId}
  {event : Event} {reply : Reply}

private theorem contains_unpark {target : ThreadId} (live : state.isLive actor = true)
    (stepped : state.step actor (.act (.unpark target)) = (.ok reply, after))
    (stays : state.hasExited thread = false)
    (awake : state.threads.reason? thread ≠ some .park) :
    (state.permitsAfter actor (.act (.unpark target))).contains thread = true ↔
      target.same thread = true ∨ state.permits.contains thread = true := by
  rw [permitsAfter, ThreadId.same_iff_lineage]
  by_cases same : target.lineage = thread.lineage
  · have notParked : state.threads.reason? target ≠ some .park := by
      rw [RunStates.reason?, state.threads.state?_congr same]
      exact awake
    rw [if_pos ⟨target_of_ok live stepped rfl same stays, notParked⟩, KeySet.contains_add,
      ThreadId.compare_eq_iff, eq_comm]
  · rw [or_iff_right same]
    split
    · rw [KeySet.contains_add, ThreadId.compare_eq_iff, or_iff_right (Ne.symm same)]
    · rfl

/-- After an event that succeeds a thread that is not parked has a permit if the event unparks
it, or if it had one; unless it parks, or exits. -/
theorem permits_of_ok (live : state.isLive actor = true)
    (stepped : state.step actor event = (.ok reply, after))
    (stays : after.hasExited thread = false)
    (awake : state.threads.reason? thread ≠ some .park) (goesOn : ¬ event.Parks actor thread) :
    after.permits.contains thread = true ↔
      event.Unparks thread ∨ state.permits.contains thread = true := by
  have permits := permits_step live event
  have exited := (frame_step_anyway live event).exited
  rw [stepped] at permits exited
  rw [permits]
  rw [hasExited, exited] at stays
  have spared : event.sparesPermits = true → (state.permits.contains thread = true ↔
      event.Unparks thread ∨ state.permits.contains thread = true) := by
    intro spares
    refine (or_iff_right ?_).symm
    rintro ⟨target, rfl, -⟩
    cases spares
  cases event with
  | announce => exact spared rfl
  | bind host => exact spared rfl
  | choose => exact spared rfl
  | readInterrupt clear => exact spared rfl
  | exit =>
      have other : compare thread actor ≠ .eq := compare_ne_of_forget stays
      exact (KeySet.contains_erase.trans (and_iff_right other)).trans (spared rfl)
  | act action =>
      cases action with
      | park =>
          have other : compare thread actor ≠ .eq := by
            rw [ne_eq, ThreadId.compare_eq_iff]
            intro same
            exact goesOn ⟨(ThreadId.same_iff_lineage _ _).2 same.symm, rfl⟩
          have unaimed : ¬ (Event.act .park).Unparks thread := by
            rintro ⟨target, unpark, -⟩
            cases unpark
          rw [permitsAfter, or_iff_right unaimed]
          split
          · exact KeySet.contains_erase.trans (and_iff_right other)
          · rfl
      | unpark target =>
          rw [Event.unparks_iff]
          exact contains_unpark live stepped stays awake
      | _ => exact spared rfl

/-- Only by an event of its own is a thread parked. -/
theorem Coherent.awake_step (coherent : state.Coherent)
    (runs : state.threads.state? actor = some .running)
    (awake : state.threads.reason? thread ≠ some .park) (goesOn : ¬ event.Parks actor thread) :
    (state.step actor event).2.threads.reason? thread ≠ some .park := by
  intro parked
  rcases coherent.reasons_step runs event thread .park parked with
    before | ⟨lock, onLock⟩ | ⟨own, new⟩
  · exact awake before
  · cases onLock
  · match event, new with
    | .act .park, _ => exact goesOn ⟨(ThreadId.same_iff_lineage _ _).2 own.symm, rfl⟩

/-- A park is passed by a thread that has a permit or is interrupted. -/
theorem step_park_of_prompted (runs : state.threads.state? actor = some .running)
    (prompted : ¬ state.Unprompted actor) :
    (state.step actor (.act .park)).1 = .ok (.schedule .goOn) ∧
      (state.step actor (.act .park)).2.threads = state.threads := by
  rw [step_of_live (isLive_iff.2 ⟨_, runs⟩)]
  simp only [prepare, prepareAction]
  split
  next => exact ⟨rfl, rfl⟩
  next none =>
    split
    next => exact ⟨rfl, rfl⟩
    next clear =>
      exact absurd ⟨Bool.eq_false_iff.2 none, Bool.eq_false_iff.2 clear⟩ prompted

/-- A park blocks a thread that has no permit and is not interrupted. -/
theorem Coherent.step_park_of_unprompted (coherent : state.Coherent)
    (runs : state.threads.state? actor = some .running) (unprompted : state.Unprompted actor) :
    (state.step actor (.act .park)).1 ≠ .ok (.schedule .goOn) ∧
      (state.step actor (.act .park)).2.threads.reason? actor = some .park := by
  have ready := coherent.ready runs (.act .park)
  have prepared : state.prepare actor (.act .park) = .choosing (state.label actor)
      { state with threads := state.threads.setBlocked actor .park } := by
    simp only [prepare, prepareAction, unprompted.1, unprompted.2]
    rfl
  rw [prepared] at ready
  have blocked : (state.threads.setBlocked actor .park).state? actor =
      some (.blocked (some .park)) :=
    (RunStates.state?_set_of_live runs _ actor).trans (if_pos rfl)
  have stays : (state.step actor (.act .park)).2.threads.state? actor =
      some (.blocked (some .park)) := by
    rw [step_of_live (isLive_iff.2 ⟨_, runs⟩), prepared, Prepared.complete_choosing]
    exact ready.1.stays_pick ready.2 (state.label actor) blocked
  refine ⟨fun goesOn => ?_, RunStates.reason?_eq_some_iff.2 stays⟩
  have reported := (coherent.reported runs (.act .park)).2
  rw [goesOn] at reported
  cases reported.symm.trans stays

private theorem permits_park (live : state.isLive actor = true) :
    (state.step actor (.act .park)).2.permits.contains actor = false := by
  rw [permits_step live, permitsAfter, ← Bool.not_eq_true]
  split
  · rw [KeySet.contains_erase]
    exact fun both => both.1 (ThreadId.compare_eq_iff.2 rfl)
  · assumption

/-- The first unpark or interrupt of a parked thread makes it runnable and leaves no permit. -/
theorem Coherent.step_prompt (coherent : state.Coherent)
    (runs : state.threads.state? actor = some .running)
    (parked : state.threads.reason? thread = some .park) (prompts : event.Prompts thread) :
    ∃ woken, state.step actor event = (.ok (.schedule .goOn), woken) ∧
      woken.threads.state? thread = some .runnable ∧ woken.permits.contains thread = false := by
  have blocked := RunStates.reason?_eq_some_iff.1 parked
  have fits := coherent.fits_of blocked
  have woken : ∀ {target : ThreadId}, target.lineage = thread.lineage →
      (state.threads.unblock target).state? thread = some .runnable := by
    intro target same
    rw [RunStates.state?_unblock, if_pos same.symm, blocked]
    rfl
  have live : ∀ {target : ThreadId}, target.lineage = thread.lineage →
      state.target target = .live ∧ state.threads.reason? target = some .park := by
    intro target same
    have there : state.threads.state? target = some (.blocked (some .park)) :=
      (state.threads.state?_congr same).trans blocked
    refine ⟨?_, RunStates.reason?_eq_some_iff.2 there⟩
    have here : ¬ state.hasExited target = true := by
      intro gone
      cases there.symm.trans (coherent.finished target gone)
    rw [Scheduler.target, if_neg here, if_pos (isLive_iff.2 ⟨_, there⟩)]
  rw [step_of_live (isLive_iff.2 ⟨_, runs⟩)]
  rcases prompts with ⟨target, rfl, same⟩ | ⟨target, rfl, same⟩
  · rw [ThreadId.same_iff_lineage] at same
    simp only [prepare, prepareAction, (live same).1]
    refine ⟨_, rfl, ?_⟩
    rw [grantPermit, if_pos (live same).2]
    exact ⟨woken same, fits.2.2.2.1⟩
  · rw [ThreadId.same_iff_lineage] at same
    simp only [prepare, prepareAction, (live same).1]
    refine ⟨_, rfl, ?_⟩
    have notEntering := (state.monitors.entering?_congr same).trans fits.1
    have notWaiting := (state.monitors.waitingFor?_congr same).trans fits.2.1
    rw [setInterrupt_resting notEntering notWaiting, if_pos (live same).2]
    exact ⟨woken same, fits.2.2.2.1⟩

/-! ## Histories -/

/-- The last park of the thread blocked it, and no unpark or interrupt of it came since. -/
inductive Parked (first : Scheduler σ) (thread : ThreadId) : History → Scheduler σ → Prop
  | blocked {history : History} {state after : Scheduler σ} {parker : ThreadId} {reply : Reply}
      (steps : Steps first history state) (own : parker.same thread = true)
      (runs : state.threads.isRunning parker = true)
      (stepped : state.step parker (.act .park) = (.ok reply, after))
      (blocks : reply ≠ .schedule .goOn) :
      Parked first thread (history ++ [(parker, .act .park)]) after
  | unprompted {history : History} {state after : Scheduler σ} {actor : ThreadId} {event : Event}
      {reply : Reply} (parked : Parked first thread history state)
      (runs : state.threads.isRunning actor = true)
      (stepped : state.step actor event = (.ok reply, after))
      (unprompted : ¬ event.Prompts thread) :
      Parked first thread (history ++ [(actor, event)]) after

/-- The last event resolved a park of the thread: the park was passed at once, or the event is
the first unpark or interrupt after a park that blocked the thread. -/
inductive Resolved (first : Scheduler σ) (thread : ThreadId) : History → Scheduler σ → Prop
  | passed {history : History} {state after : Scheduler σ} {parker : ThreadId}
      (steps : Steps first history state) (own : parker.same thread = true)
      (runs : state.threads.isRunning parker = true)
      (stepped : state.step parker (.act .park) = (.ok (.schedule .goOn), after)) :
      Resolved first thread (history ++ [(parker, .act .park)]) after
  | awoken {history : History} {state after : Scheduler σ} {actor : ThreadId} {event : Event}
      {reply : Reply} (parked : Parked first thread history state)
      (runs : state.threads.isRunning actor = true)
      (stepped : state.step actor event = (.ok reply, after))
      (prompts : event.Prompts thread) :
      Resolved first thread (history ++ [(actor, event)]) after

/-- The last part of the history came after the last park of the thread was resolved.  It is the
whole history if the thread did not park. -/
inductive SinceResolved (first : Scheduler σ) (thread : ThreadId) :
    History → History → Scheduler σ → Prop
  | begun : SinceResolved first thread [] [] first
  | resolved {history : History} {state : Scheduler σ}
      (resolved : Resolved first thread history state) : SinceResolved first thread history [] state
  | report {history late : History} {state after : Scheduler σ} {actor : ThreadId} {event : Event}
      {reply : Reply} (since : SinceResolved first thread history late state)
      (runs : state.threads.isRunning actor = true)
      (stepped : state.step actor event = (.ok reply, after))
      (goesOn : ¬ event.Parks actor thread) :
      SinceResolved first thread (history ++ [(actor, event)]) (late ++ [(actor, event)]) after

variable {first : Scheduler σ} {history late : History}

private theorem Parked.steps (parked : Parked first thread history state) :
    Steps first history state := by
  induction parked with
  | blocked steps own runs stepped blocks => exact .report steps runs stepped
  | unprompted parked runs stepped unprompted inductionHypothesis =>
      exact .report inductionHypothesis runs stepped

private theorem Resolved.steps (resolved : Resolved first thread history state) :
    Steps first history state := by
  cases resolved with
  | passed steps own runs stepped => exact .report steps runs stepped
  | awoken parked runs stepped prompts => exact .report parked.steps runs stepped

private theorem SinceResolved.steps (since : SinceResolved first thread history late state) :
    Steps first history state := by
  induction since with
  | begun => exact .refl
  | resolved resolved => exact resolved.steps
  | report since runs stepped goesOn inductionHypothesis =>
      exact .report inductionHypothesis runs stepped

/-- In every state of a run the last park of a thread is resolved, or the thread is parked. -/
theorem Steps.resolved_or_parked (steps : Steps first history state) (thread : ThreadId) :
    (∃ late, SinceResolved first thread history late state) ∨
      Parked first thread history state := by
  induction steps with
  | refl => exact .inl ⟨[], .begun⟩
  | @report history state after actor event reply steps runs stepped inductionHypothesis =>
      rcases inductionHypothesis with ⟨late, since⟩ | parked
      · by_cases parks : event.Parks actor thread
        · obtain ⟨own, rfl⟩ := parks
          by_cases passes : reply = .schedule .goOn
          · subst passes
            exact .inl ⟨[], .resolved (.passed steps own runs stepped)⟩
          · exact .inr (.blocked steps own runs stepped passes)
        · exact .inl ⟨_, .report since runs stepped parks⟩
      · by_cases prompts : event.Prompts thread
        · exact .inl ⟨[], .resolved (.awoken parked runs stepped prompts)⟩
        · exact .inr (.unprompted parked runs stepped prompts)

/-- As long as it is not unparked or interrupted, a thread that its park blocked stays so. -/
theorem Parked.reason (parked : Parked first thread history state) (coherent : first.Coherent) :
    state.threads.reason? thread = some .park := by
  induction parked with
  | @blocked history state after parker reply steps own runs stepped blocks =>
      have running := RunStates.isRunning_iff.1 runs
      have unprompted : state.Unprompted parker := by
        by_contra prompted
        have passed := (step_park_of_prompted running prompted).1
        rw [stepped] at passed
        exact blocks (Except.ok.inj passed)
      have blocked := ((steps.coherent coherent).step_park_of_unprompted running unprompted).2
      rw [stepped, RunStates.reason?,
        after.threads.state?_congr ((ThreadId.same_iff_lineage _ _).1 own)] at blocked
      exact blocked
  | @unprompted history state after actor event reply parked runs stepped unprompted
      inductionHypothesis =>
      have running := RunStates.isRunning_iff.1 runs
      have waits := RunStates.reason?_eq_some_iff.1 inductionHypothesis
      have other : thread.lineage ≠ actor.lineage := by
        intro same
        rw [state.threads.state?_congr same, running] at waits
        cases waits
      have stays := (parked.steps.coherent coherent).stays_step running event other waits
      rw [stepped] at stays
      exact RunStates.reason?_eq_some_iff.2 (stays.resolve_right unprompted)

/-- When its park is resolved, a thread is no longer parked and has no permit. -/
theorem Resolved.cleared (resolved : Resolved first thread history state)
    (coherent : first.Coherent) :
    state.threads.reason? thread ≠ some .park ∧ state.permits.contains thread = false := by
  cases resolved with
  | @passed history before _ parker steps own runs stepped =>
      have running := RunStates.isRunning_iff.1 runs
      have same := (ThreadId.same_iff_lineage _ _).1 own
      have permits := permits_park (isLive_iff.2 ⟨_, running⟩)
      have reported := (steps.coherent coherent).reported running (.act .park)
      rw [stepped] at permits reported
      have goesOn : state.threads.state? thread = some .running :=
        (state.threads.state?_congr same.symm).trans reported.2
      exact ⟨RunStates.reason?_ne goesOn nofun, (contains_congr same).symm.trans permits⟩
  | @awoken history before _ actor event reply parked runs stepped prompts =>
      obtain ⟨woken, effect, runnable, none⟩ :=
        (parked.steps.coherent coherent).step_prompt (RunStates.isRunning_iff.1 runs)
          (parked.reason coherent) prompts
      cases stepped.symm.trans effect
      exact ⟨RunStates.reason?_ne runnable nofun, none⟩

/-- Since its last park was resolved, a thread that did not exit is not parked, and it has a
permit if and only if it was unparked. -/
theorem SinceResolved.account (since : SinceResolved first thread history late state)
    (coherent : first.Coherent) (awake : first.threads.reason? thread ≠ some .park)
    (none : first.permits.contains thread = false) (stays : state.hasExited thread = false) :
    state.threads.reason? thread ≠ some .park ∧
      (state.permits.contains thread = true ↔ late.Unparked thread) := by
  have cleared : ∀ {state : Scheduler σ}, state.permits.contains thread = false →
      (state.permits.contains thread = true ↔ History.Unparked [] thread) := fun none =>
    iff_of_false (Bool.eq_false_iff.1 none) (History.not_unparked_nil thread)
  induction since with
  | begun => exact ⟨awake, cleared none⟩
  | resolved resolved =>
      obtain ⟨awake, none⟩ := resolved.cleared coherent
      exact ⟨awake, cleared none⟩
  | @report history late state after actor event reply since runs stepped goesOn
      inductionHypothesis =>
      have running := RunStates.isRunning_iff.1 runs
      obtain ⟨awake, permitted⟩ := inductionHypothesis (stayed_of_ok running stepped stays)
      have still := (since.steps.coherent coherent).awake_step running awake goesOn
      rw [stepped] at still
      refine ⟨still, ?_⟩
      rw [permits_of_ok (isLive_iff.2 ⟨_, running⟩) stepped stays awake goesOn, permitted,
        History.unparked_concat]

/-- Events that are no parks of the thread are added to those since its last park. -/
theorem SinceResolved.trans {more : History} (since : SinceResolved first thread history late state)
    (steps : Steps state more after)
    (goesOn : ∀ report ∈ more, ¬ report.2.Parks report.1 thread) :
    SinceResolved first thread (history ++ more) (late ++ more) after := by
  induction steps with
  | refl =>
      rw [List.append_nil, List.append_nil]
      exact since
  | report steps runs stepped inductionHypothesis =>
      rw [← List.append_assoc, ← List.append_assoc]
      refine .report (inductionHypothesis fun report member => ?_) runs stepped ?_
      · exact goesOn report (List.mem_append_left _ member)
      · exact goesOn _ (List.mem_append_right _ (List.mem_singleton_self _))

/-- What comes of a park, if `late` was reported since the last park was resolved. -/
structure ParkLaw (state : Scheduler σ) (thread : ThreadId) (late : History) : Prop where
  /-- The thread goes on if it is interrupted, or if it was unparked, were it once or often. -/
  passes : ((state.step thread (.act .park)).1 = .ok (.schedule .goOn) ∧
      (state.step thread (.act .park)).2.threads.isRunning thread = true) ↔
    (state.interrupted.contains thread = true ∨ late.Unparked thread)
  /-- Otherwise it is blocked, even if the event fails for want of another thread to run. -/
  blocks : ¬ (state.interrupted.contains thread = true ∨ late.Unparked thread) →
    (state.step thread (.act .park)).2.threads.reason? thread = some .park
  /-- In both cases no permit is left. -/
  usedUp : (state.step thread (.act .park)).2.permits.contains thread = false

/-- What ends a park that blocked the thread. -/
structure WakeLaw (state : Scheduler σ) (thread : ThreadId) : Prop where
  waits : state.threads.reason? thread = some .park
  /-- An unpark or interrupt makes the thread runnable at once and leaves no permit. -/
  woken : ∀ actor event, state.threads.isRunning actor = true → event.Prompts thread →
    ∃ after, state.step actor event = (.ok (.schedule .goOn), after) ∧
      after.threads.state? thread = some .runnable ∧ after.permits.contains thread = false

private theorem Coherent.parkLaw (coherent : state.Coherent)
    (runs : state.threads.state? thread = some .running)
    (permitted : state.permits.contains thread = true ↔ late.Unparked thread) :
    state.ParkLaw thread late := by
  have prompted : (state.interrupted.contains thread = true ∨ late.Unparked thread) ↔
      ¬ state.Unprompted thread := by
    rw [← permitted, Unprompted, ← Bool.not_eq_true, ← Bool.not_eq_true]
    tauto
  constructor
  case passes =>
    rw [prompted]
    constructor
    · rintro ⟨passed, -⟩ unprompted
      exact (coherent.step_park_of_unprompted runs unprompted).1 passed
    · intro prompted
      obtain ⟨passed, same⟩ := step_park_of_prompted runs prompted
      refine ⟨passed, ?_⟩
      rw [same]
      exact RunStates.isRunning_iff.2 runs
  case blocks =>
    rw [prompted, not_not]
    exact fun unprompted => (coherent.step_park_of_unprompted runs unprompted).2
  case usedUp => exact permits_park (isLive_iff.2 ⟨_, runs⟩)

/-- An unpark of a thread that reached its exit changes nothing. -/
theorem step_unpark_of_exited (runs : state.threads.state? actor = some .running)
    (exited : state.hasExited thread = true) :
    state.step actor (.act (.unpark thread)) = (.ok (.schedule .goOn), state) := by
  have known : state.target thread = .exited := if_pos exited
  rw [step_of_live (isLive_iff.2 ⟨_, runs⟩)]
  simp only [prepare, prepareAction, known]
  rfl

/-- In a run, no unpark is lost and none is invented.  A thread passes its park if and only if
it is interrupted or was unparked since its previous park was resolved; otherwise it is blocked
until the first unpark or interrupt, which is used up by that.  An unpark of a thread that
reached its exit changes nothing. -/
theorem driven_parks (source : σ) (maxDecisions : Nat) (host : Host) (thread : ThreadId)
    (driven : Driven source maxDecisions host history state) :
    (state.threads.isRunning thread = true →
      (∃ late, SinceResolved ((fresh source maxDecisions).begin host).2 thread history late
        state) ∧
      ∀ late, SinceResolved ((fresh source maxDecisions).begin host).2 thread history late state →
        state.ParkLaw thread late) ∧
    (Parked ((fresh source maxDecisions).begin host).2 thread history state →
      state.WakeLaw thread) ∧
    ∀ actor, state.threads.isRunning actor = true → state.hasExited thread = true →
      state.step actor (.act (.unpark thread)) = (.ok (.schedule .goOn), state) := by
  have begun := coherent_begun source maxDecisions host
  have coherent := driven.coherent
  refine ⟨fun isRunning => ?_, fun parked => ?_, fun actor runs exited =>
    step_unpark_of_exited (RunStates.isRunning_iff.1 runs) exited⟩
  · have runs := RunStates.isRunning_iff.1 isRunning
    constructor
    · refine (Steps.resolved_or_parked driven thread).resolve_right fun parked => ?_
      cases (RunStates.reason?_eq_some_iff.1 (parked.reason begun)).symm.trans runs
    · intro late since
      have stays : state.hasExited thread = false := by
        rw [← Bool.not_eq_true]
        intro exited
        cases runs.symm.trans (coherent.finished thread exited)
      have awake : ((fresh source maxDecisions).begin host).2.threads.reason? thread ≠
          some .park := by
        rw [ne_eq, RunStates.reason?_eq_some_iff, state?_begun]
        split <;> nofun
      exact coherent.parkLaw runs (since.account begun awake rfl stays).2
  · refine ⟨parked.reason begun, fun actor event runs prompts => ?_⟩
    exact coherent.step_prompt (RunStates.isRunning_iff.1 runs) (parked.reason begun) prompts

/-- The root announces a child and parks. -/
def parkedRoot : History :=
  [(.root, .announce), (.root, .act .park)]

/-- A child unparks the root twice and stands back. -/
def unparkingChild : History :=
  [(.child .root 0, .act (.unpark .root)), (.child .root 0, .act (.unpark .root)),
    (.child .root 0, .choose)]

/-- The child wakes the root and unparks it again, so that its next park is passed.  When the
root has reached its exit, the child unparks it to no effect. -/
theorem parks_of_unparked_root :
    ∃ parked woken left,
      Driven (Script.ofAnswers [.position 0]) 4 0 parkedRoot parked ∧ parked.WakeLaw .root ∧
      Driven (Script.ofAnswers [.position 0]) 4 0
        (parkedRoot ++ [(.child .root 0, .act (.unpark .root))] ++ unparkingChild) woken ∧
      woken.threads.isRunning .root = true ∧ woken.ParkLaw .root unparkingChild ∧
      Driven (Script.ofAnswers [.position 0]) 4 0
        (parkedRoot ++ [(.child .root 0, .act (.unpark .root))] ++ unparkingChild ++
          [(.root, .exit)]) left ∧
      left.step (.child .root 0) (.act (.unpark .root)) = (.ok (.schedule .goOn), left) := by
  let begun := ((fresh (Script.ofAnswers [.position 0]) 4).begin 0).2
  let announced := reach begun [(.root, .announce)]
  let parked := reach announced [(.root, .act .park)]
  let awoken := reach parked [(.child .root 0, .act (.unpark .root))]
  let woken := reach awoken unparkingChild
  have announces : drive begun [(.root, .announce)] = some announced :=
    drive_eq_reach _ _ (by decide +kernel)
  have parks : drive announced [(.root, .act .park)] = some parked :=
    drive_eq_reach _ _ (by decide +kernel)
  have wakes : drive parked [(.child .root 0, .act (.unpark .root))] = some awoken :=
    drive_eq_reach _ _ (by decide +kernel)
  have unparks : drive awoken unparkingChild = some woken :=
    drive_eq_reach _ _ (by decide +kernel)
  have exits : drive woken [(.root, .exit)] = some (reach woken [(.root, .exit)]) :=
    drive_eq_reach _ _ (by decide +kernel)
  obtain ⟨rootRuns, reply, parking⟩ := drive_singleton.1 parks
  obtain ⟨childRuns, answer, waking⟩ := drive_singleton.1 wakes
  have blocks : (announced.step .root (.act .park)).1 ≠ .ok (.schedule .goOn) := by
    decide +kernel
  have blocked : Parked begun .root parkedRoot parked :=
    .blocked (steps_iff_drive.2 announces) rfl rootRuns parking
      fun passes => blocks (by rw [parking, passes])
  have resolved : Resolved begun .root
      (parkedRoot ++ [(.child .root 0, .act (.unpark .root))]) awoken :=
    .awoken blocked childRuns waking (.inl ⟨.root, rfl, rfl⟩)
  have since : SinceResolved begun .root _ unparkingChild woken :=
    (SinceResolved.resolved resolved).trans (steps_iff_drive.2 unparks)
      (by simp [Event.Parks])
  have left := Steps.trans since.steps (steps_iff_drive.2 exits)
  have running : woken.threads.isRunning .root = true := by decide +kernel
  exact ⟨_, _, _, blocked.steps, (driven_parks _ 4 0 .root blocked.steps).2.1 blocked,
    since.steps, running, ((driven_parks _ 4 0 .root since.steps).1 running).2 _ since, left,
    (driven_parks _ 4 0 .root left).2.2 _ (by decide +kernel) (by decide +kernel)⟩

end Scheduler

end ScheduleSearch
