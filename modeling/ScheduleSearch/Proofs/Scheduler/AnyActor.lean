import ScheduleSearch.Proofs.Scheduler.Frame

/-!
# Events of any thread

What an event leaves alone does not depend on which thread acts: also where the acting thread is
not the running one, an event does no more to the records of the frame than it notes of its own
thread, and a thread that is known stays known.  Nothing is assumed of the state here, so these
facts hold also after a broken assumption.
-/

namespace ScheduleSearch.Scheduler

variable {σ : Type} {state : Scheduler σ} {actor : ThreadId}

/-- Letting a thread run leaves the frame alone, whoever runs already. -/
theorem frame_promote_anyway (state : Scheduler σ) (next : ThreadId) :
    ChoiceFrame state (state.promote next).2 := by
  unfold promote
  cases turned : state.threads.setRunning next with
  | error violation => exact .refl state
  | ok threads =>
      have set : threads = state.threads.set next .running := by
        rw [RunStates.setRunning] at turned
        split at turned
        · exact (Except.ok.inj turned).symm
        · cases turned
      have kept : ∀ thread, threads.contains thread = state.threads.contains thread := by
        rw [set]
        exact state.threads.contains_set next .running
      dsimp only
      split
      · exact ⟨rfl, rfl, rfl, rfl, rfl, rfl, rfl, rfl, waiting_resume _ next, kept⟩
      · refine ⟨rfl, rfl, rfl, rfl, rfl, rfl, rfl, rfl, waiting_resume _ next, fun thread => ?_⟩
        cases (state.monitors.resume next).2.entering? next with
        | none => exact kept thread
        | some lock => exact (threads.contains_set next _ thread).trans (kept thread)

/-- Letting a thread run does not touch the source. -/
theorem source_promote (state : Scheduler σ) (next : ThreadId) :
    (state.promote next).2.source = state.source := by
  unfold promote
  split
  · rfl
  · dsimp only
    split <;> rfl

variable [DecisionSource σ]

private theorem frame_select (state : Scheduler σ) (label : String) (options : List ThreadId) :
    ChoiceFrame state (state.select label options).2 := by
  obtain ⟨decisions, source, asked, -⟩ := select_cases state label options
  rw [asked]
  exact ⟨rfl, rfl, rfl, rfl, rfl, rfl, rfl, rfl, rfl, fun _ => rfl⟩

private theorem frame_pickWithin (label : String) (rounds : Nat) :
    ∀ state : Scheduler σ, ChoiceFrame state (pickWithin rounds state label).2 := by
  induction rounds with
  | zero => exact fun state => .refl state
  | succ rounds inductionHypothesis =>
      intro state
      rw [pickWithin]
      have asked := frame_select state label state.threads.runnable
      split
      · exact .refl state
      · split
        next selected =>
          rw [selected] at asked
          exact asked
        next next after selected =>
          rw [selected] at asked
          have promoted := asked.trans (frame_promote_anyway after next)
          split
          next turned =>
            rw [turned] at promoted
            exact promoted
          next turned =>
            rw [turned] at promoted
            exact promoted
          next demoted turned =>
            rw [turned] at promoted
            exact promoted.trans (inductionHypothesis demoted)

theorem frame_pick_anyway (state : Scheduler σ) (label : String) :
    ChoiceFrame state (state.pick label).2 :=
  frame_pickWithin label _ state

/-- An event does no more to these records than it notes of its own thread. -/
theorem frame_step_anyway (live : state.isLive actor = true) (event : Event) :
    StepFrame (state.noted actor event) (state.step actor event).2 := by
  have frame := frame_prepare state actor event
  have prepared : StepFrame (state.noted actor event) (state.prepare actor event).state :=
    ⟨frame.registry, frame.exited, frame.places, frame.rootExited, frame.maxDecisions, frame.live⟩
  rw [step_of_live live]
  cases shape : state.prepare actor event with
  | settled outcome after =>
      rw [shape] at prepared
      exact prepared
  | choosing label ready =>
      rw [shape] at prepared
      have choice := frame_pick_anyway ready label
      rw [Prepared.complete_choosing]
      exact ⟨choice.registry.trans prepared.registry, choice.exited.trans prepared.exited,
        choice.places.trans prepared.places, choice.rootExited.trans prepared.rootExited,
        choice.maxDecisions.trans prepared.maxDecisions,
        fun thread => (choice.live thread).trans (prepared.live thread)⟩

/-- Who is live after an event: whoever was, but for a thread that exits, and a child that is
announced. -/
theorem isLive_step (live : state.isLive actor = true) (event : Event) (thread : ThreadId) :
    (state.step actor event).2.isLive thread = true ↔
      match event with
      | .announce =>
          thread.lineage = actor.lineage ++ [state.nextNumber actor] ∨ state.isLive thread = true
      | .exit => thread.lineage ≠ actor.lineage ∧ state.isLive thread = true
      | _ => state.isLive thread = true := by
  rw [(frame_step_anyway live event).live]
  match event with
  | .announce => exact isLive_announce state actor thread
  | .bind host => exact Iff.rfl
  | .exit => exact isLive_forget state actor thread
  | .choose => exact Iff.rfl
  | .readInterrupt clear => exact Iff.rfl
  | .act action => cases action <;> exact Iff.rfl

omit [DecisionSource σ] in
private theorem known_noted (live : state.isLive actor = true) (event : Event) {thread : ThreadId}
    (known : state.Known thread) : (state.noted actor event).Known thread := by
  match event with
  | .announce => exact (known_announce state actor thread).2 (Or.inr known)
  | .bind host => exact known
  | .exit => exact (known_forget live thread).2 known
  | .choose => exact known
  | .readInterrupt clear => exact known
  | .act action => cases action <;> exact known

/-- A thread that is live or reached its exit stays one of these. -/
theorem Known.step {thread : ThreadId} (known : state.Known thread) (actor : ThreadId)
    (event : Event) : (state.step actor event).2.Known thread := by
  by_cases live : state.isLive actor = true
  · have frame := frame_step_anyway live event
    have noted := known_noted live event known
    unfold Known hasExited at noted ⊢
    rwa [frame.live, frame.exited]
  · rw [Scheduler.step, ifLive, if_neg live]
    exact known

end ScheduleSearch.Scheduler
