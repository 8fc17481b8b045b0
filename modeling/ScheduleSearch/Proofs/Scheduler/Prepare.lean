import ScheduleSearch.Scheduler.Step

/-!
# Events before the choice

An event either settles the matter itself or leaves the choice of the next thread to the
decision source.  `Scheduler.prepare` is the part of an event that comes before that choice;
it does not look at the source.
-/

namespace ScheduleSearch

/-- What an event comes to before a thread is chosen. -/
inductive Prepared (σ : Type) where
  /-- Nobody has to be chosen. -/
  | settled (outcome : Outcome Reply) (state : Scheduler σ)
  /-- The next thread is chosen under this label. -/
  | choosing (label : String) (state : Scheduler σ)

namespace Prepared

variable {σ : Type}

/-- The state before the choice. -/
def state : Prepared σ → Scheduler σ
  | settled _ state => state
  | choosing _ state => state

/-- The event as a whole, with the choice if one is left. -/
def complete [DecisionSource σ] : Prepared σ → Outcome Reply × Scheduler σ
  | settled outcome state => (outcome, state)
  | choosing label state =>
      let (outcome, after) := state.pick label
      (outcome.map .schedule, after)

theorem complete_choosing [DecisionSource σ] (label : String) (state : Scheduler σ) :
    (choosing label state).complete =
      ((state.pick label).1.map .schedule, (state.pick label).2) := rfl

/-- An event after which the acting thread goes on. -/
def goOn (state : Scheduler σ) : Prepared σ :=
  settled (.ok (.schedule .goOn)) state

end Prepared

namespace Scheduler

variable {σ : Type}

/-- The state in which `thread` no longer runs. -/
def stoodBack (state : Scheduler σ) (thread : ThreadId) : Scheduler σ :=
  if state.threads.isRunning thread then
    { state with threads := state.threads.setRunnable thread }
  else state

/-- `thread` stands back and the next thread is chosen. -/
def standingBack (state : Scheduler σ) (thread : ThreadId) : Prepared σ :=
  .choosing (state.label thread) (state.stoodBack thread)

/-- The part of an action that comes before a choice. -/
def prepareAction (state : Scheduler σ) (actor : ThreadId) : Action → Prepared σ
  | .yield site => { state with places := state.places.insert actor site }.standingBack actor
  | .enter lock =>
      let (transition, monitors) := state.monitors.enter actor lock
      let entered := { state with monitors := monitors }
      if transition.blocked.isEmpty then .goOn entered
      else .choosing (state.label actor) (entered.follow transition (.lock lock))
  | .leave lock =>
      match state.monitors.leave actor lock with
      | .error fault => .settled (.error (.fault fault)) state
      | .ok (transition, monitors) =>
          ({ state with monitors := monitors }.follow transition (.lock lock)).standingBack actor
  | .wait lock timed =>
      match state.monitors.wait actor lock timed with
      | .error fault => .settled (.error (.fault fault)) state
      | .ok (transition, monitors) =>
          ({ state with monitors := monitors }.follow transition (.signal lock)).standingBack actor
  | .notify lock =>
      match state.monitors.notify actor lock with
      | .error fault => .settled (.error (.fault fault)) state
      | .ok monitors => .goOn { state with monitors := monitors }
  | .notifyAll lock =>
      match state.monitors.notifyAll actor lock with
      | .error fault => .settled (.error (.fault fault)) state
      | .ok monitors => .goOn { state with monitors := monitors }
  | .park =>
      if state.permits.contains actor then
        .goOn { state with permits := state.permits.erase actor }
      else if state.interrupted.contains actor then .goOn state
      else
        .choosing (state.label actor)
          { state with threads := state.threads.setBlocked actor .park }
  | .unpark target =>
      match state.target target with
      | .exited => .goOn state
      | .unknown => .settled (.error (untracked target)) state
      | .live => .goOn (state.grantPermit target)
  | .join joinee timed =>
      match state.target joinee with
      | .exited => .settled (.ok (.schedule (.resume actor))) state
      | .unknown => .settled (.error (untracked joinee)) state
      | .live =>
          if timed then state.standingBack actor
          else
            .choosing (state.label actor)
              { state with
                joins := state.joins.add joinee actor
                threads := state.threads.setBlocked actor (.join joinee) }
  | .interrupt target =>
      match state.target target with
      | .exited => .goOn state
      | .unknown => .settled (.error (untracked target)) state
      | .live => .goOn (state.setInterrupt target)

/-- The part of an event that comes before a choice. -/
def prepare (state : Scheduler σ) (actor : ThreadId) : Event → Prepared σ
  | .announce =>
      let (outcome, after) := state.announce actor
      .settled (outcome.map .announced) after
  | .bind host =>
      .settled (.ok .done) { state with registry := state.registry.bind host actor }
  | .exit => .choosing (exitLabel actor) (state.forget actor)
  | .choose => state.standingBack actor
  | .readInterrupt clear =>
      let (isSet, after) := state.readInterrupt actor clear
      .settled (.ok (.flag isSet)) after
  | .act action => state.prepareAction actor action

variable [DecisionSource σ]

private theorem standBack_eq (state : Scheduler σ) (thread : ThreadId) :
    (((state.standBack thread).1.map Reply.schedule, (state.standBack thread).2) :
      Outcome Reply × Scheduler σ) = (state.standingBack thread).complete := by
  unfold standBack standingBack stoodBack
  split <;> rfl

private theorem perform_eq (state : Scheduler σ) (actor : ThreadId) (action : Action) :
    (((state.perform actor action).1.map Reply.schedule, (state.perform actor action).2) :
      Outcome Reply × Scheduler σ) = (state.prepareAction actor action).complete := by
  cases action with
  | yield site => exact standBack_eq _ actor
  | enter lock =>
      simp only [perform, enter, prepareAction]
      split <;> rfl
  | leave lock =>
      simp only [perform, leave, prepareAction]
      cases state.monitors.leave actor lock with
      | error fault => rfl
      | ok result => exact standBack_eq _ actor
  | wait lock timed =>
      simp only [perform, wait, prepareAction]
      cases state.monitors.wait actor lock timed with
      | error fault => rfl
      | ok result => exact standBack_eq _ actor
  | notify lock =>
      simp only [perform, prepareAction]
      cases state.monitors.notify actor lock <;> rfl
  | notifyAll lock =>
      simp only [perform, prepareAction]
      cases state.monitors.notifyAll actor lock <;> rfl
  | park =>
      simp only [perform, park, prepareAction]
      split
      · rfl
      · split <;> rfl
  | unpark target =>
      simp only [perform, unpark, prepareAction]
      cases state.target target <;> rfl
  | join joinee timed =>
      simp only [perform, join, prepareAction]
      cases state.target joinee with
      | exited => rfl
      | unknown => rfl
      | live =>
          cases timed with
          | true => exact standBack_eq state actor
          | false => rfl
  | interrupt target =>
      simp only [perform, interrupt, prepareAction]
      cases state.target target <;> rfl

/-- An event is its part before the choice followed by the choice. -/
theorem apply_eq_complete (state : Scheduler σ) (actor : ThreadId) (event : Event) :
    state.apply actor event = (state.prepare actor event).complete := by
  cases event with
  | announce => rfl
  | bind host => rfl
  | exit => rfl
  | choose => exact standBack_eq state actor
  | readInterrupt clear => rfl
  | act action => exact perform_eq state actor action

theorem step_of_live {state : Scheduler σ} {actor : ThreadId} (live : state.isLive actor = true)
    (event : Event) : state.step actor event = (state.prepare actor event).complete := by
  rw [step, ifLive, if_pos live, apply_eq_complete]

end Scheduler

end ScheduleSearch
