import ScheduleSearch.Proofs.Scheduler.AnyActor
import ScheduleSearch.Proofs.Scheduler.Awakenings

/-!
# Permits and interrupt flags

A permit is left to a thread by an unpark that does not find it parked.  Its next park uses the
permit up, and it loses the permit when it reaches its exit.  Interrupt flags are set by
interrupts and cleared by the threads that read them.  Permits and flags after an event follow
from those before it, whatever thread acts: the choice of the next thread concerns neither.
-/

namespace ScheduleSearch.Scheduler

variable {σ : Type} {state : Scheduler σ} {actor : ThreadId}

/-- The permits after an event. -/
def permitsAfter (state : Scheduler σ) (actor : ThreadId) : Event → KeySet ThreadId
  | .exit => state.permits.erase actor
  | .act .park =>
      if state.permits.contains actor then state.permits.erase actor else state.permits
  | .act (.unpark target) =>
      if state.target target = .live ∧ state.threads.reason? target ≠ some .park then
        state.permits.add target
      else state.permits
  | _ => state.permits

/-- The interrupt flags after an event. -/
def flagsAfter (state : Scheduler σ) (actor : ThreadId) : Event → KeySet ThreadId
  | .exit => state.interrupted.erase actor
  | .readInterrupt true => state.interrupted.erase actor
  | .act (.interrupt target) =>
      if state.target target = .live then state.interrupted.add target else state.interrupted
  | _ => state.interrupted

/-- These are the permits and the interrupt flags of the state. -/
structure Prompted (state : Scheduler σ) (permits flags : KeySet ThreadId) : Prop where
  permits : state.permits = permits
  flags : state.interrupted = flags

private theorem prompted_stoodBack (state : Scheduler σ) (thread : ThreadId) :
    (state.stoodBack thread).Prompted state.permits state.interrupted := by
  unfold stoodBack
  split <;> exact ⟨rfl, rfl⟩

private theorem prompted_grantPermit (state : Scheduler σ) (target : ThreadId) :
    (state.grantPermit target).Prompted
      (if state.threads.reason? target ≠ some .park then state.permits.add target
        else state.permits)
      state.interrupted := by
  unfold grantPermit
  by_cases parked : state.threads.reason? target = some .park
  · rw [if_pos parked, if_neg (not_not_intro parked)]
    exact ⟨rfl, rfl⟩
  · rw [if_neg parked, if_pos parked]
    exact ⟨rfl, rfl⟩

private theorem prompted_setInterrupt (state : Scheduler σ) (target : ThreadId) :
    (state.setInterrupt target).Prompted state.permits (state.interrupted.add target) := by
  unfold setInterrupt
  dsimp only
  split
  · split
    · split <;> exact ⟨rfl, rfl⟩
    · split <;> exact ⟨rfl, rfl⟩
  · split <;> exact ⟨rfl, rfl⟩

private theorem prompted_prepareAction (state : Scheduler σ) (actor : ThreadId) (action : Action) :
    (state.prepareAction actor action).state.Prompted
      (state.permitsAfter actor (.act action)) (state.flagsAfter actor (.act action)) := by
  cases action with
  | yield site => exact prompted_stoodBack { state with places := _ } actor
  | enter lock =>
      simp only [prepareAction]
      split <;> exact ⟨rfl, rfl⟩
  | leave lock =>
      simp only [prepareAction]
      cases state.monitors.leave actor lock with
      | error fault => exact ⟨rfl, rfl⟩
      | ok result => exact prompted_stoodBack (follow _ _ _) actor
  | wait lock timed =>
      simp only [prepareAction]
      cases state.monitors.wait actor lock timed with
      | error fault => exact ⟨rfl, rfl⟩
      | ok result => exact prompted_stoodBack (follow _ _ _) actor
  | notify lock =>
      simp only [prepareAction]
      cases state.monitors.notify actor lock <;> exact ⟨rfl, rfl⟩
  | notifyAll lock =>
      simp only [prepareAction]
      cases state.monitors.notifyAll actor lock <;> exact ⟨rfl, rfl⟩
  | park =>
      simp only [prepareAction, permitsAfter]
      split
      · exact ⟨rfl, rfl⟩
      · split <;> exact ⟨rfl, rfl⟩
  | unpark target =>
      simp only [prepareAction, permitsAfter]
      cases state.target target with
      | exited => exact ⟨(if_neg (by simp)).symm, rfl⟩
      | unknown => exact ⟨(if_neg (by simp)).symm, rfl⟩
      | live =>
          simp only [true_and]
          exact prompted_grantPermit state target
  | join joinee timed =>
      simp only [prepareAction]
      cases state.target joinee with
      | exited => exact ⟨rfl, rfl⟩
      | unknown => exact ⟨rfl, rfl⟩
      | live =>
          cases timed with
          | true => exact prompted_stoodBack state actor
          | false => exact ⟨rfl, rfl⟩
  | interrupt target =>
      simp only [prepareAction, flagsAfter]
      cases state.target target with
      | exited => exact ⟨rfl, (if_neg (by decide)).symm⟩
      | unknown => exact ⟨rfl, (if_neg (by decide)).symm⟩
      | live =>
          rw [if_pos rfl]
          exact prompted_setInterrupt state target

private theorem prompted_prepare (state : Scheduler σ) (actor : ThreadId) (event : Event) :
    (state.prepare actor event).state.Prompted
      (state.permitsAfter actor event) (state.flagsAfter actor event) := by
  cases event with
  | announce => exact ⟨rfl, rfl⟩
  | bind host => exact ⟨rfl, rfl⟩
  | exit => exact ⟨rfl, rfl⟩
  | choose => exact prompted_stoodBack state actor
  | readInterrupt clear => cases clear <;> exact ⟨rfl, rfl⟩
  | act action => exact prompted_prepareAction state actor action

variable [DecisionSource σ]

private theorem prompted_step (live : state.isLive actor = true) (event : Event) :
    (state.step actor event).2.Prompted
      (state.permitsAfter actor event) (state.flagsAfter actor event) := by
  have prepared := prompted_prepare state actor event
  rw [step_of_live live]
  cases shape : state.prepare actor event with
  | settled outcome after =>
      rw [shape] at prepared
      exact prepared
  | choosing label ready =>
      rw [shape] at prepared
      have choice := frame_pick_anyway ready label
      exact ⟨choice.permits.trans prepared.permits, choice.interrupted.trans prepared.flags⟩

theorem permits_step (live : state.isLive actor = true) (event : Event) :
    (state.step actor event).2.permits = state.permitsAfter actor event :=
  (prompted_step live event).permits

theorem interrupted_step (live : state.isLive actor = true) (event : Event) :
    (state.step actor event).2.interrupted = state.flagsAfter actor event :=
  (prompted_step live event).flags

end ScheduleSearch.Scheduler
