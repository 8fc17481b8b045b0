import ScheduleSearch.Scheduler.State

/-!
# Choosing the next thread

With no thread running, one of the runnable threads is chosen: the only one without asking,
and one of several by the decision source.  A chosen thread that wants a lock which another
one holds meanwhile is blocked again, and the choice is repeated among the others.  So the
number of runnable threads bounds the number of rounds.
-/

namespace ScheduleSearch.Scheduler

variable {σ : Type}

/-- The live threads that wait, with what is known of them. -/
def stuckThreads (state : Scheduler σ) : List StuckThread :=
  state.threads.blocked.map fun (thread, reason) =>
    { thread := thread
      reason := reason
      lastSeen := (state.places.get? thread).map Site.text }

/-- What holds when no thread is runnable: the execution is over, or it is stuck. -/
def stalled (state : Scheduler σ) : Outcome Schedule :=
  if state.threads.isEmpty then .ok .quiescent
  else if state.rootExited then .error (.fault (.danglingThreads state.stuckThreads))
  else .error (.fault (.deadlock state.stuckThreads))

/-- Asks the decision source, within the limit of decisions.  The answer must have been
offered. -/
def ask [DecisionSource σ] (state : Scheduler σ) (question : Question) :
    Outcome ThreadId × Scheduler σ :=
  let counted := { state with decisions := state.decisions + 1 }
  if counted.decisions > counted.maxDecisions then
    (.error (.fault (.decisionLimitExceeded counted.maxDecisions)), counted)
  else
    match DecisionSource.decide counted.source question with
    | (.error fault, source) => (.error (.fault fault), { counted with source := source })
    | (.ok chosen, source) =>
        let answered := { counted with source := source }
        if question.options.any fun option => option.same chosen then (.ok chosen, answered)
        else (.error (untracked chosen), answered)

/-- Chooses one of the runnable threads, asking only if there are several. -/
def select [DecisionSource σ] (state : Scheduler σ) (label : String) :
    List ThreadId → Outcome ThreadId × Scheduler σ
  | [only] => (.ok only, state)
  | options => state.ask ⟨label, options⟩

/-- Lets a chosen thread run.  It is blocked again, and `false` is the answer, if it wants a
lock that another thread holds. -/
def promote (state : Scheduler σ) (next : ThreadId) : Outcome Bool × Scheduler σ :=
  match state.threads.setRunning next with
  | .error violation => (.error (.violation violation), state)
  | .ok threads =>
      let (transition, monitors) := state.monitors.resume next
      if transition.blocked.isEmpty then
        (.ok true, { state with threads := threads, monitors := monitors })
      else
        let demoted :=
          match monitors.entering? next with
          | some lock => threads.setBlocked next (.lock lock)
          | none => threads
        (.ok false, { state with threads := demoted, monitors := monitors })

/-- Chooses among the runnable threads, in at most as many rounds as there are. -/
def pickWithin [DecisionSource σ] :
    Nat → Scheduler σ → String → Outcome Schedule × Scheduler σ
  | 0, state, _ => (state.stalled, state)
  | rounds + 1, state, label =>
      match state.threads.runnable with
      | [] => (state.stalled, state)
      | options =>
          match state.select label options with
          | (.error halt, asked) => (.error halt, asked)
          | (.ok next, asked) =>
              match asked.promote next with
              | (.error halt, halted) => (.error halt, halted)
              | (.ok true, resumed) => (.ok (.resume next), resumed)
              | (.ok false, demoted) => pickWithin rounds demoted label

/-- Chooses the thread that runs next. -/
def pick [DecisionSource σ] (state : Scheduler σ) (label : String) :
    Outcome Schedule × Scheduler σ :=
  pickWithin state.threads.runnable.length state label

/-- Lets `thread` stand back if it is running, and chooses. -/
def standBack [DecisionSource σ] (state : Scheduler σ) (thread : ThreadId) :
    Outcome Schedule × Scheduler σ :=
  let state :=
    if state.threads.isRunning thread then
      { state with threads := state.threads.setRunnable thread }
    else state
  state.pick (state.label thread)

end ScheduleSearch.Scheduler
