import ScheduleSearch.Proofs.Exploration.ProgramTree

/-!
# Choices that nothing holds up

While no thread is queued for a lock, a choice takes one decision at most and every runnable
thread can be the outcome, in the order of threads.
-/

namespace ScheduleSearch

namespace Scheduler

variable {σ : Type} {state : Scheduler σ}

/-- The state in which `next` runs after a number of decisions. -/
def turned (state : Scheduler σ) (decisions : Nat) (next : ThreadId) : Scheduler σ :=
  { state with threads := state.threads.set next .running, decisions := decisions }

private theorem outcomes_select (within : state.decisions < state.maxDecisions) (choice : Choice) :
    ∃ decisions ≤ state.decisions + 1, (state.selectTree choice).outcomes =
      choice.options.map fun next => (.ok next, { state with decisions := decisions }) := by
  have asked : (state.askTree choice).outcomes = choice.options.map fun next =>
      (.ok next, { state with decisions := state.decisions + 1 }) := by
    have shape : state.askTree choice = .decision choice fun position =>
        .ended (.ok (choice.options.get position),
          { state with decisions := state.decisions + 1 }) :=
      if_neg (Nat.not_lt.2 within)
    rw [shape, DecisionProgram.outcomes_decision]
    have listed := List.flatMap_pure_eq_map
      (fun position => ((.ok (choice.options.get position) : Outcome ThreadId),
        { state with decisions := state.decisions + 1 })) (List.finRange choice.options.length)
    have options := congrArg (List.map fun next => ((.ok next : Outcome ThreadId),
      { state with decisions := state.decisions + 1 })) (List.map_get_finRange choice.options)
    rw [List.map_map] at options
    exact listed.trans options
  unfold selectTree
  split
  next only single => exact ⟨state.decisions, Nat.le_succ _, by rw [single]; rfl⟩
  next => exact ⟨state.decisions + 1, Nat.le_refl _, asked⟩

private theorem promoteTree_of_free (nobody : ∀ thread, state.threads.state? thread ≠ some .running)
    {next : ThreadId} (free : state.monitors.entering? next = none) (decisions : Nat)
    (again : Scheduler σ → DecisionProgram (Outcome Schedule × Scheduler σ)) :
    promoteTree again (.ok next, { state with decisions := decisions }) =
      .ended (.ok (.resume next), state.turned decisions next) := by
  have promoted : ({ state with decisions := decisions } : Scheduler σ).promote next =
      (.ok true, state.turned decisions next) := by
    unfold promote
    dsimp only
    rw [RunStates.setRunning_of_none nobody, MonitorTable.resume_of_not_entering free]
    rfl
  unfold promoteTree
  dsimp only
  rw [promoted]

/-- Whoever is runnable may come next. -/
theorem outcomes_pick (nobody : ∀ thread, state.threads.state? thread ≠ some .running)
    (free : ∀ thread, state.monitors.entering? thread = none)
    (within : state.decisions < state.maxDecisions) (someone : state.threads.runnable ≠ [])
    (label : String) :
    ∃ decisions ≤ state.decisions + 1,
      (pickTreeWithin state.threads.runnable.length state label).outcomes =
        state.threads.runnable.map fun next => (.ok (.resume next), state.turned decisions next) := by
  obtain ⟨decisions, bounded, selected⟩ := outcomes_select within (state.turn label someone)
  obtain ⟨rounds, counted⟩ := Nat.exists_eq_succ_of_ne_zero (List.length_pos_iff.2 someone).ne'
  refine ⟨decisions, bounded, ?_⟩
  rw [counted, pickTreeWithin, dif_pos someone, DecisionProgram.outcomes_bind, selected,
    List.flatMap_map]
  change state.threads.runnable.flatMap _ = _
  have resumed : ∀ next : ThreadId,
      (promoteTree (fun demoted => pickTreeWithin rounds demoted label)
        (.ok next, { state with decisions := decisions })).outcomes =
          [(.ok (.resume next), state.turned decisions next)] := by
    intro next
    rw [promoteTree_of_free nobody (free next) decisions]
    rfl
  simp only [resumed]
  exact List.flatMap_pure_eq_map _ _

end Scheduler

end ScheduleSearch
