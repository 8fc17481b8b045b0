import ScheduleSearch.Proofs.Scheduler.Permits
import ScheduleSearch.Proofs.Scheduler.Refusals
import ScheduleSearch.Proofs.Scheduler.StuckThreads

/-!
# Interrupt flags

The interrupt flag of a thread is set by the interrupts that are aimed at it, and cleared when
the thread reads it with that intent or reaches its exit.  So it tells whether the thread was
interrupted since it last read and cleared the flag.  An untimed wait does not look at the flag;
if no thread begins one while its flag is set, no thread awaits a signal while its flag is set.
-/

namespace ScheduleSearch

/-- By the event the thread reads its interrupt flag and clears it. -/
def Event.Clears (event : Event) (actor thread : ThreadId) : Prop :=
  actor.same thread = true ∧ event = .readInterrupt true

/-- The event is neither an interrupt nor a read that clears the flag of the reader. -/
def Event.sparesFlags : Event → Bool
  | .readInterrupt clear => !clear
  | .act (.interrupt _) => false
  | _ => true

/-- The thread was interrupted, and did not read and clear its interrupt flag since. -/
def History.InterruptedSinceRead (history : History) (thread : ThreadId) : Prop :=
  ∃ early actor event late, history = early ++ (actor, event) :: late ∧
    event.Interrupts thread ∧ ∀ report ∈ late, ¬ report.2.Clears report.1 thread

private theorem History.not_interruptedSinceRead_nil (thread : ThreadId) :
    ¬ History.InterruptedSinceRead [] thread := by
  rintro ⟨early, actor, event, late, split, -⟩
  cases early <;> cases split

private theorem History.interruptedSinceRead_concat (history : History) (actor : ThreadId)
    (event : Event) (thread : ThreadId) :
    History.InterruptedSinceRead (history ++ [(actor, event)]) thread ↔
      event.Interrupts thread ∨
        (history.InterruptedSinceRead thread ∧ ¬ event.Clears actor thread) := by
  constructor
  · rintro ⟨early, interrupter, interrupt, late, split, interrupts, unread⟩
    rcases List.eq_nil_or_concat late with rfl | ⟨between, last, rfl⟩
    · obtain ⟨-, same⟩ := List.append_inj' split rfl
      cases same
      exact Or.inl interrupts
    · rw [List.concat_eq_append, ← List.cons_append, ← List.append_assoc] at split
      obtain ⟨before, same⟩ := List.append_inj' split rfl
      obtain rfl := List.singleton_inj.1 same
      rw [List.concat_eq_append] at unread
      refine Or.inr ⟨⟨early, interrupter, interrupt, between, before, interrupts, ?_⟩, ?_⟩
      · intro report member
        exact unread report (List.mem_append_left _ member)
      · exact unread _ (List.mem_append_right _ (List.mem_singleton_self _))
  · rintro (interrupts | ⟨⟨early, interrupter, interrupt, late, rfl, interrupts, unread⟩, keeps⟩)
    · exact ⟨history, actor, event, [], rfl, interrupts, nofun⟩
    · refine ⟨early, interrupter, interrupt, late ++ [(actor, event)], ?_, interrupts, ?_⟩
      · rw [List.append_assoc, List.cons_append]
      · intro report member
        rcases List.mem_append.1 member with earlier | last
        · exact unread report earlier
        · rw [List.mem_singleton.1 last]
          exact keeps

namespace Scheduler

variable {σ : Type} {state after : Scheduler σ} {actor thread : ThreadId} {event : Event}

variable [DecisionSource σ]

omit [DecisionSource σ] in
private theorem flag_of_spares (spares : event.sparesFlags = true) :
    state.interrupted.contains thread = true ↔
      event.Interrupts thread ∨
        (state.interrupted.contains thread = true ∧ ¬ event.Clears actor thread) := by
  have unaimed : ¬ event.Interrupts thread := by
    rintro ⟨target, rfl, -⟩
    cases spares
  have keeps : ¬ event.Clears actor thread := by
    rintro ⟨-, rfl⟩
    cases spares
  rw [or_iff_right unaimed, and_iff_left keeps]

/-- What an event that succeeds is about is live, unless it reached its exit. -/
theorem target_of_ok {target : ThreadId} {reply : Reply} (live : state.isLive actor = true)
    (stepped : state.step actor event = (.ok reply, after))
    (named : event.target? = some target) (same : target.lineage = thread.lineage)
    (stays : state.hasExited thread = false) : state.target target = .live := by
  cases known : state.target target with
  | live => rfl
  | unknown => exact absurd known (target_ne_unknown live stepped named)
  | exited =>
      have gone := hasExited_of_target known
      rw [hasExited, contains_congr same] at gone
      cases gone.symm.trans stays

private theorem contains_interrupt {target : ThreadId} {reply : Reply}
    (live : state.isLive actor = true)
    (stepped : state.step actor (.act (.interrupt target)) = (.ok reply, after))
    (stays : state.hasExited thread = false) :
    (state.flagsAfter actor (.act (.interrupt target))).contains thread = true ↔
      target.same thread = true ∨ state.interrupted.contains thread = true := by
  rw [flagsAfter, ThreadId.same_iff_lineage]
  by_cases same : target.lineage = thread.lineage
  · rw [if_pos (target_of_ok live stepped rfl same stays), KeySet.contains_add,
      ThreadId.compare_eq_iff, eq_comm]
  · rw [or_iff_right same]
    split
    · rw [KeySet.contains_add, ThreadId.compare_eq_iff, or_iff_right (Ne.symm same)]
    · rfl

omit [DecisionSource σ] in
/-- The thread that exits is another than one that did not exit. -/
theorem compare_ne_of_forget (stays : (state.forget actor).hasExited thread = false) :
    compare thread actor ≠ .eq := by
  rw [ne_eq, ThreadId.compare_eq_iff]
  intro same
  have gone := (hasExited_forget state actor thread).2 (Or.inl same)
  cases gone.symm.trans stays

/-- After an event that succeeds the flag of a thread that did not exit is set if the event
interrupts the thread, or if it was set and the event does not clear it. -/
theorem Coherent.interrupted_of_ok (coherent : state.Coherent) {reply : Reply}
    (runs : state.threads.state? actor = some .running)
    (stepped : state.step actor event = (.ok reply, after))
    (stays : after.hasExited thread = false) :
    after.interrupted.contains thread = true ↔
      event.Interrupts thread ∨
        (state.interrupted.contains thread = true ∧ ¬ event.Clears actor thread) := by
  have live : state.isLive actor = true := isLive_iff.2 ⟨_, runs⟩
  have flags := interrupted_step live event
  have exited := (coherent.frame_step runs event).exited
  rw [stepped] at flags exited
  rw [flags]
  rw [hasExited, exited] at stays
  cases event with
  | announce => exact flag_of_spares rfl
  | bind host => exact flag_of_spares rfl
  | choose => exact flag_of_spares rfl
  | exit =>
      have other : compare thread actor ≠ .eq := compare_ne_of_forget stays
      exact (KeySet.contains_erase.trans (and_iff_right other)).trans (flag_of_spares rfl)
  | readInterrupt clear =>
      cases clear with
      | false => exact flag_of_spares rfl
      | true =>
          have unaimed : ¬ (Event.readInterrupt true).Interrupts thread := by
            rintro ⟨target, interrupt, -⟩
            cases interrupt
          refine KeySet.contains_erase.trans ?_
          rw [or_iff_right unaimed, ne_eq, ThreadId.compare_eq_iff, Event.Clears,
            ThreadId.same_iff_lineage, and_iff_left rfl, and_comm, @eq_comm _ thread.lineage]
  | act action =>
      cases action with
      | interrupt target =>
          have keeps : ¬ (Event.act (.interrupt target)).Clears actor thread := by
            rintro ⟨-, read⟩
            cases read
          rw [Event.interrupts_iff, and_iff_left keeps]
          exact contains_interrupt live stepped stays
      | _ => exact flag_of_spares rfl

private theorem hasExited_step (runs : state.threads.state? actor = some .running)
    (exited : state.hasExited thread = true) (event : Event) :
    (state.step actor event).2.hasExited thread = true := by
  have frame := frame_step_anyway (isLive_iff.2 ⟨_, runs⟩) event
  rw [hasExited, frame.exited]
  cases event with
  | exit => exact (hasExited_forget state actor thread).2 (Or.inr exited)
  | act action => cases action <;> exact exited
  | _ => exact exited

theorem stayed_of_ok {reply : Reply} (runs : state.threads.state? actor = some .running)
    (stepped : state.step actor event = (.ok reply, after))
    (stays : after.hasExited thread = false) : state.hasExited thread = false := by
  rw [← Bool.not_eq_true]
  intro exited
  have still := hasExited_step runs exited event
  rw [stepped] at still
  cases still.symm.trans stays

/-- In a run the interrupt flag of a thread that did not exit is set if and only if it was
interrupted since it last read and cleared the flag. -/
theorem Driven.interrupted_iff {source : σ} {maxDecisions : Nat} {host : Host}
    {history : History} (driven : Driven source maxDecisions host history state)
    (stays : state.hasExited thread = false) :
    state.interrupted.contains thread = true ↔ history.InterruptedSinceRead thread := by
  have begun := coherent_begun source maxDecisions host
  unfold Driven at driven
  induction driven with
  | refl =>
      constructor
      · intro impossible
        cases impossible
      · intro impossible
        exact absurd impossible (History.not_interruptedSinceRead_nil thread)
  | @report history state after actor event reply steps runs stepped inductionHypothesis =>
      have coherent := Steps.coherent steps begun
      have running := RunStates.isRunning_iff.1 runs
      have earlier := inductionHypothesis (stayed_of_ok running stepped stays)
      refine (coherent.interrupted_of_ok running stepped stays).trans ?_
      refine Iff.trans ?_ (history.interruptedSinceRead_concat actor event thread).symm
      exact or_congr_right (and_congr_left' earlier)

/-- No thread awaits a signal while its interrupt flag is set. -/
def Attentive (state : Scheduler σ) : Prop :=
  ∀ thread lock, state.threads.reason? thread = some (.signal lock) →
    state.interrupted.contains thread = false

omit [DecisionSource σ] in
theorem attentive_begun (source : σ) (maxDecisions : Nat) (host : Host) :
    ((fresh source maxDecisions).begin host).2.Attentive := by
  intro thread lock waits
  rw [RunStates.reason?_eq_some_iff, state?_begun] at waits
  split at waits <;> cases waits

/-- This stays so as long as no thread begins to wait for a signal while its flag is set. -/
theorem Attentive.of_ok (attentive : state.Attentive) (coherent : state.Coherent) {reply : Reply}
    (runs : state.threads.state? actor = some .running)
    (stepped : state.step actor event = (.ok reply, after))
    (heeds : ∀ lock, event = .act (.wait lock false) →
      state.interrupted.contains actor = false) : after.Attentive := by
  intro thread lock waits
  have reported := coherent.reported runs event
  rw [stepped] at reported
  have stays : after.hasExited thread = false := by
    rw [← Bool.not_eq_true]
    intro exited
    have absent := reported.1.finished thread exited
    rw [RunStates.reason?_eq_some_iff, absent] at waits
    cases waits
  have reasons := coherent.reasons_step runs event thread (.signal lock)
  rw [stepped] at reasons
  rw [← Bool.not_eq_true, coherent.interrupted_of_ok runs stepped stays]
  rintro (⟨target, rfl, aimed⟩ | ⟨flagged, -⟩)
  · rcases reasons waits with before | ⟨held, onLock⟩ | ⟨own, new⟩
    · have still : (state.step actor (.act (.interrupt target))).2.threads.reason? thread =
          some (.signal lock) := by
        rw [stepped]
        exact waits
      cases aimed.symm.trans (coherent.uninterrupted runs before still)
    · cases onLock
    · cases new
  · rcases reasons waits with before | ⟨held, onLock⟩ | ⟨own, new⟩
    · cases flagged.symm.trans (attentive thread lock before)
    · cases onLock
    · have clear := heeds lock (Event.eq_wait_of_reason? new)
      rw [contains_congr own, clear] at flagged
      cases flagged

end Scheduler

end ScheduleSearch
