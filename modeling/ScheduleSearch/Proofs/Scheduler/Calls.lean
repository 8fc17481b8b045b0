import ScheduleSearch.Scheduler.Step

/-!
# Calls on an execution

An execution is begun, and events are reported to it, in any order and on behalf of any threads.
`Scheduler.answers` lists what comes of a sequence of such calls, with the state after each.
-/

namespace ScheduleSearch

/-- A call on an execution. -/
inductive SchedulerCall where
  /-- A host thread begins the execution. -/
  | begin (host : Host)
  /-- Something happened on behalf of a thread. -/
  | report (actor : ThreadId) (event : Event)
  deriving DecidableEq, Repr

/-- Whether the call begins the execution. -/
def SchedulerCall.isBegin : SchedulerCall → Bool
  | begin _ => true
  | report .. => false

/-- A call, what came of it, and the state after it. -/
structure CallResult (σ : Type) where
  call : SchedulerCall
  outcome : Outcome Reply
  after : Scheduler σ

namespace Scheduler

variable {σ : Type} [DecisionSource σ]

/-- Carries out a call. -/
def answer (state : Scheduler σ) : SchedulerCall → CallResult σ
  | .begin host =>
      let (outcome, after) := state.begin host
      ⟨.begin host, outcome.map .announced, after⟩
  | .report actor event =>
      let (outcome, after) := state.step actor event
      ⟨.report actor event, outcome, after⟩

/-- What comes of a sequence of calls, one after the other. -/
def answers : Scheduler σ → List SchedulerCall → List (CallResult σ)
  | _, [] => []
  | state, call :: rest => state.answer call :: (state.answer call).after.answers rest

/-- The state after a sequence of calls. -/
def afterCalls (state : Scheduler σ) (calls : List SchedulerCall) : Scheduler σ :=
  calls.foldl (fun state call => (state.answer call).after) state

theorem afterCalls_append_singleton (state : Scheduler σ) (calls : List SchedulerCall)
    (call : SchedulerCall) :
    state.afterCalls (calls ++ [call]) = ((state.afterCalls calls).answer call).after := by
  rw [afterCalls, List.foldl_append]
  rfl

theorem answers_append_singleton (calls : List SchedulerCall) (call : SchedulerCall) :
    ∀ state : Scheduler σ,
      state.answers (calls ++ [call]) =
        state.answers calls ++ [(state.afterCalls calls).answer call] := by
  induction calls with
  | nil => exact fun _ => rfl
  | cons first rest inductionHypothesis =>
      intro state
      exact congrArg (List.cons _) (inductionHypothesis (state.answer first).after)

end Scheduler

end ScheduleSearch
