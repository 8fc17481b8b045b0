import ScheduleSearch.Scheduler.Pick

/-!
# The effect of events

`begin` starts an execution and `step` applies one event of an acting thread.  An event of a
thread that is not live is refused before anything changes.  After a violation the state is
what it was when the assumption was found broken.
-/

namespace ScheduleSearch.Scheduler

variable {σ : Type}

/-- Starts the execution: the root is carried by `host` and runs. -/
def begin (state : Scheduler σ) (host : Host) : Outcome ThreadId × Scheduler σ :=
  let (first, registry) := state.registry.create host none
  let state := { state with registry := registry }
  match state.threads.register first .running with
  | .ok threads => (.ok first, { state with threads := threads })
  | .error violation => (.error (.violation violation), state)

def announce (state : Scheduler σ) (actor : ThreadId) : Outcome ThreadId × Scheduler σ :=
  let (child, registry) := state.registry.allocate (some actor)
  let state := { state with registry := registry }
  match state.threads.register child .runnable with
  | .ok threads => (.ok child, { state with threads := threads })
  | .error violation => (.error (.violation violation), state)

/-- Makes runnable each of the listed threads that waits. -/
def unblockAll (state : Scheduler σ) (threads : List ThreadId) : Scheduler σ :=
  { state with threads := threads.foldl RunStates.unblock state.threads }

/-- Carries out what an operation on monitors asks of the run states. -/
def follow (state : Scheduler σ) (transition : Transition) (reason : BlockReason) :
    Scheduler σ :=
  { state with
    threads := transition.blocked.foldl (fun threads thread => threads.setBlocked thread reason)
      state.threads }.unblockAll transition.unblocked

/-- What is left when `actor` is gone: its joiners may go on, and it has no run state, host
thread, children to count, place, permit or interrupt flag. -/
def forget (state : Scheduler σ) (actor : ThreadId) : Scheduler σ :=
  let (joiners, joins) := state.joins.release actor
  let unblocked := { state with joins := joins }.unblockAll joiners
  { unblocked with
    threads := unblocked.threads.remove actor
    registry := (unblocked.registry.forget actor).2
    places := unblocked.places.erase actor
    permits := unblocked.permits.erase actor
    interrupted := unblocked.interrupted.erase actor
    exited := unblocked.exited.add actor
    rootExited := unblocked.rootExited || actor.isRoot }

/-- Whether an event may name `target`: a live thread, or one that reached its exit, in which
case the event has no effect. -/
inductive Target where
  | exited
  | live
  | unknown
  deriving DecidableEq, Repr

/-- What is known of a thread that an event names. -/
def target (state : Scheduler σ) (thread : ThreadId) : Target :=
  if state.hasExited thread then .exited
  else if state.isLive thread then .live
  else .unknown

/-- `target` gets a permit, or is woken if it is parked. -/
def grantPermit (state : Scheduler σ) (target : ThreadId) : Scheduler σ :=
  if state.threads.reason? target = some BlockReason.park then
    { state with threads := state.threads.unblock target }
  else { state with permits := state.permits.add target }

/-- Sets the interrupt flag of `target`.  If it waits for a signal it moves to the entry queue
of its lock, and if it is parked it is woken. -/
def setInterrupt (state : Scheduler σ) (target : ThreadId) : Scheduler σ :=
  let (transition, monitors) := state.monitors.interrupt target
  let moved : Scheduler σ :=
    { state with
      interrupted := state.interrupted.add target
      monitors := monitors }.unblockAll transition.unblocked
  let requeued : Scheduler σ :=
    match monitors.entering? target with
    | some lock =>
        if moved.threads.isBlocked target then
          { moved with threads := moved.threads.setBlocked target (.lock lock) }
        else moved
    | none => moved
  if requeued.threads.reason? target = some BlockReason.park then
    { requeued with threads := requeued.threads.unblock target }
  else requeued

section Events

variable [DecisionSource σ]

def exit (state : Scheduler σ) (actor : ThreadId) : Outcome Schedule × Scheduler σ :=
  (state.forget actor).pick (exitLabel actor)

/-- `actor` passes a place where another thread may take over. -/
def yield (state : Scheduler σ) (actor : ThreadId) (site : Site) :
    Outcome Schedule × Scheduler σ :=
  { state with places := state.places.insert actor site }.standBack actor

/-- `actor` enters a lock.  It goes on at once unless another thread holds the lock. -/
def enter (state : Scheduler σ) (actor : ThreadId) (lock : LockId) :
    Outcome Schedule × Scheduler σ :=
  let (transition, monitors) := state.monitors.enter actor lock
  let entered := { state with monitors := monitors }
  if transition.blocked.isEmpty then (.ok .goOn, entered)
  else
    let queued := entered.follow transition (.lock lock)
    queued.pick (queued.label actor)

/-- `actor` leaves a lock once; another thread may take over. -/
def leave (state : Scheduler σ) (actor : ThreadId) (lock : LockId) :
    Outcome Schedule × Scheduler σ :=
  match state.monitors.leave actor lock with
  | .error fault => (.error (.fault fault), state)
  | .ok (transition, monitors) =>
      ({ state with monitors := monitors }.follow transition (.lock lock)).standBack actor

/-- `actor` gives up a lock and waits for a signal; a timed wait only lets others go first. -/
def wait (state : Scheduler σ) (actor : ThreadId) (lock : LockId) (timed : Bool) :
    Outcome Schedule × Scheduler σ :=
  match state.monitors.wait actor lock timed with
  | .error fault => (.error (.fault fault), state)
  | .ok (transition, monitors) =>
      ({ state with monitors := monitors }.follow transition (.signal lock)).standBack actor

/-- What comes of a signal that `actor` sent. -/
def signalled (state : Scheduler σ) :
    Except Fault MonitorTable → Outcome Schedule × Scheduler σ
  | .error fault => (.error (.fault fault), state)
  | .ok monitors => (.ok .goOn, { state with monitors := monitors })

/-- `actor` parks, unless it has a permit, which is used up, or is interrupted. -/
def park (state : Scheduler σ) (actor : ThreadId) : Outcome Schedule × Scheduler σ :=
  if state.permits.contains actor then
    (.ok .goOn, { state with permits := state.permits.erase actor })
  else if state.interrupted.contains actor then (.ok .goOn, state)
  else
    let parked := { state with threads := state.threads.setBlocked actor .park }
    parked.pick (parked.label actor)

def unpark (state : Scheduler σ) (target : ThreadId) : Outcome Schedule × Scheduler σ :=
  match state.target target with
  | .exited => (.ok .goOn, state)
  | .unknown => (.error (untracked target), state)
  | .live => (.ok .goOn, state.grantPermit target)

/-- `actor` waits for the exit of `joinee`.  A timed join only lets others go first. -/
def join (state : Scheduler σ) (actor joinee : ThreadId) (timed : Bool) :
    Outcome Schedule × Scheduler σ :=
  match state.target joinee with
  | .exited => (.ok (.resume actor), state)
  | .unknown => (.error (untracked joinee), state)
  | .live =>
      if timed then state.standBack actor
      else
        let joining :=
          { state with
            joins := state.joins.add joinee actor
            threads := state.threads.setBlocked actor (.join joinee) }
        joining.pick (joining.label actor)

def interrupt (state : Scheduler σ) (target : ThreadId) : Outcome Schedule × Scheduler σ :=
  match state.target target with
  | .exited => (.ok .goOn, state)
  | .unknown => (.error (untracked target), state)
  | .live => (.ok .goOn, state.setInterrupt target)

/-- `actor` reads its interrupt flag and clears it if asked to. -/
def readInterrupt (state : Scheduler σ) (actor : ThreadId) (clear : Bool) :
    Bool × Scheduler σ :=
  (state.interrupted.contains actor,
    if clear then { state with interrupted := state.interrupted.erase actor } else state)

def perform (state : Scheduler σ) (actor : ThreadId) :
    Action → Outcome Schedule × Scheduler σ
  | .yield site => state.yield actor site
  | .enter lock => state.enter actor lock
  | .leave lock => state.leave actor lock
  | .wait lock timed => state.wait actor lock timed
  | .notify lock => state.signalled (state.monitors.notify actor lock)
  | .notifyAll lock => state.signalled (state.monitors.notifyAll actor lock)
  | .park => state.park actor
  | .unpark target => state.unpark target
  | .join joinee timed => state.join actor joinee timed
  | .interrupt target => state.interrupt target

def apply (state : Scheduler σ) (actor : ThreadId) : Event → Outcome Reply × Scheduler σ
  | .announce =>
      let (outcome, after) := state.announce actor
      (outcome.map .announced, after)
  | .bind host => (.ok .done, { state with registry := state.registry.bind host actor })
  | .exit =>
      let (outcome, after) := state.exit actor
      (outcome.map .schedule, after)
  | .choose =>
      let (outcome, after) := state.standBack actor
      (outcome.map .schedule, after)
  | .readInterrupt clear =>
      let (isSet, after) := state.readInterrupt actor clear
      (.ok (.flag isSet), after)
  | .act action =>
      let (outcome, after) := state.perform actor action
      (outcome.map .schedule, after)

/-- Refuses an effect on behalf of a thread that is not live. -/
def ifLive {α : Type} (state : Scheduler σ) (actor : ThreadId)
    (effect : Outcome α × Scheduler σ) : Outcome α × Scheduler σ :=
  if state.isLive actor then effect else (.error (untracked actor), state)

/-- Applies an event.  The acting thread must be live. -/
def step (state : Scheduler σ) (actor : ThreadId) (event : Event) :
    Outcome Reply × Scheduler σ :=
  state.ifLive actor (state.apply actor event)

end Events

end ScheduleSearch.Scheduler
