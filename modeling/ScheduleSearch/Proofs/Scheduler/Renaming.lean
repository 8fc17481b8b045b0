import ScheduleSearch.Proofs.Monitor.Renaming
import ScheduleSearch.Proofs.Scheduler.Lifecycle

/-!
# Executions under other lock numbers

The run states of an execution and of the one in which every lock was replaced by another differ
in the reasons for which threads are blocked, and the two choose among the same threads.  Up to
the choice an event therefore comes to the same.  The source is asked the same questions; a
fault is the renamed one unless the source itself answered with it, which knows of no locks.
-/

namespace ScheduleSearch

/-- The run state with the lock that the thread waits for replaced. -/
def RunState.renamed (rename : LockId → LockId) : RunState → RunState
  | blocked reason => blocked (reason.map (BlockReason.renamed rename))
  | state => state

section RunState

variable (rename : LockId → LockId) (state : RunState)

private theorem RunState.isRunning_renamed :
    (state.renamed rename).isRunning = state.isRunning := by
  cases state <;> rfl

private theorem RunState.isRunnable_renamed :
    (state.renamed rename).isRunnable = state.isRunnable := by
  cases state <;> rfl

private theorem RunState.isBlocked_renamed :
    (state.renamed rename).isBlocked = state.isBlocked := by
  cases state <;> rfl

private theorem RunState.reason?_renamed :
    (state.renamed rename).reason? = state.reason?.map (BlockReason.renamed rename) := by
  cases state <;> rfl

end RunState

namespace RunStates

/-- The run states with every lock replaced that a thread waits for. -/
def renamed (rename : LockId → LockId) (states : RunStates) : RunStates :=
  ⟨states.table.mapValues (RunState.renamed rename)⟩

variable (rename : LockId → LockId) (states : RunStates) (thread : ThreadId)

private theorem state?_renamed :
    (states.renamed rename).state? thread = (states.state? thread).map (RunState.renamed rename) :=
  Table.get?_mapValues (RunState.renamed rename) states.table thread

private theorem contains_renamed :
    (states.renamed rename).contains thread = states.contains thread :=
  Table.contains_mapValues (RunState.renamed rename) states.table thread

private theorem isEmpty_renamed : (states.renamed rename).isEmpty = states.isEmpty :=
  Table.isEmpty_mapValues (RunState.renamed rename) states.table

private theorem threadsWhere_renamed {test : RunState → Bool}
    (blind : ∀ state : RunState, test (state.renamed rename) = test state) :
    (states.renamed rename).threadsWhere test = states.threadsWhere test := by
  simp only [threadsWhere, renamed, Table.mapValues, List.filter_map, List.map_map,
    Function.comp_def, blind]

theorem running?_renamed : (states.renamed rename).running? = states.running? :=
  congrArg List.head? (states.threadsWhere_renamed rename (RunState.isRunning_renamed rename))

private theorem runnable_renamed : (states.renamed rename).runnable = states.runnable :=
  states.threadsWhere_renamed rename (RunState.isRunnable_renamed rename)

private theorem blocked_renamed :
    (states.renamed rename).blocked =
      states.blocked.map fun entry => (entry.1, entry.2.map (BlockReason.renamed rename)) := by
  simp only [blocked, renamed, Table.mapValues, List.filter_map, List.map_map, Function.comp_def,
    RunState.isBlocked_renamed, RunState.reason?_renamed]

private theorem isRunning_renamed :
    (states.renamed rename).isRunning thread = states.isRunning thread := by
  unfold isRunning
  rw [state?_renamed, Option.any_map]
  simp only [RunState.isRunning_renamed]

private theorem isBlocked_renamed :
    (states.renamed rename).isBlocked thread = states.isBlocked thread := by
  unfold isBlocked
  rw [state?_renamed, Option.any_map]
  simp only [RunState.isBlocked_renamed]

private theorem reason?_renamed :
    (states.renamed rename).reason? thread =
      (states.reason? thread).map (BlockReason.renamed rename) := by
  unfold reason?
  rw [state?_renamed]
  cases states.state? thread with
  | none => rfl
  | some state => exact state.reason?_renamed rename

private theorem reason?_renamed_eq_park_iff :
    (states.renamed rename).reason? thread = some .park ↔
      states.reason? thread = some .park := by
  rw [reason?_renamed]
  cases states.reason? thread with
  | none => exact Iff.rfl
  | some reason => cases reason <;> simp [BlockReason.renamed]

private theorem set_renamed (state : RunState) :
    (states.renamed rename).set thread (state.renamed rename) =
      (states.set thread state).renamed rename :=
  congrArg mk (Table.modify_mapValues (RunState.renamed rename) states.table (fun _ => state)
    (fun _ => state.renamed rename) (fun _ => rfl) thread)

private theorem setBlocked_renamed (reason : BlockReason) :
    (states.renamed rename).setBlocked thread (reason.renamed rename) =
      (states.setBlocked thread reason).renamed rename :=
  states.set_renamed rename thread (.blocked (some reason))

private theorem unblock_renamed :
    (states.renamed rename).unblock thread = (states.unblock thread).renamed rename := by
  refine congrArg mk (Table.modify_mapValues _ states.table RunState.woken RunState.woken ?_ thread)
  intro state
  cases state <;> rfl

private theorem remove_renamed :
    (states.renamed rename).remove thread = (states.remove thread).renamed rename :=
  congrArg mk (Table.erase_mapValues _ states.table thread)

private theorem foldl_unblock_renamed (threads : List ThreadId) :
    ∀ states : RunStates, threads.foldl unblock (states.renamed rename) =
      (threads.foldl unblock states).renamed rename := by
  induction threads with
  | nil => exact fun _ => rfl
  | cons thread rest inductionHypothesis =>
      intro states
      rw [List.foldl_cons, List.foldl_cons, unblock_renamed, inductionHypothesis]

private theorem foldl_setBlocked_renamed (reason : BlockReason) (threads : List ThreadId) :
    ∀ states : RunStates,
      threads.foldl (fun states thread => states.setBlocked thread (reason.renamed rename))
          (states.renamed rename) =
        (threads.foldl (fun states thread => states.setBlocked thread reason) states).renamed
          rename := by
  induction threads with
  | nil => exact fun _ => rfl
  | cons thread rest inductionHypothesis =>
      intro states
      rw [List.foldl_cons, List.foldl_cons, setBlocked_renamed, inductionHypothesis]

private theorem setRunning_renamed :
    (states.renamed rename).setRunning thread =
      (states.setRunning thread).map (renamed rename) := by
  unfold setRunning
  rw [running?_renamed]
  split
  · exact congrArg Except.ok (states.set_renamed rename thread .running)
  · rfl

end RunStates

/-! ## Events before the choice -/

/-- The halt with every lock it names replaced. -/
def Halt.renamed (rename : LockId → LockId) : Halt → Halt
  | fault cause => fault (cause.renamed rename)
  | violation broken => violation broken

def Action.renamed (rename : LockId → LockId) : Action → Action
  | enter lock => enter (rename lock)
  | leave lock => leave (rename lock)
  | wait lock timed => wait (rename lock) timed
  | notify lock => notify (rename lock)
  | notifyAll lock => notifyAll (rename lock)
  | action => action

/-- The event with the lock it names replaced. -/
def Event.renamed (rename : LockId → LockId) : Event → Event
  | act action => act (action.renamed rename)
  | event => event

/-- What came of an event, with every lock replaced that a halt names. -/
def renamedOutcome {α : Type} (rename : LockId → LockId) (outcome : Outcome α) : Outcome α :=
  outcome.mapError (Halt.renamed rename)

/-- The execution with every lock replaced. -/
def Scheduler.renamed {σ : Type} (rename : LockId → LockId) (state : Scheduler σ) : Scheduler σ :=
  { state with
    threads := state.threads.renamed rename
    monitors := state.monitors.renamed rename }

def Prepared.renamed {σ : Type} (rename : LockId → LockId) : Prepared σ → Prepared σ
  | settled outcome state => settled (renamedOutcome rename outcome) (state.renamed rename)
  | choosing label state => choosing label (state.renamed rename)

namespace Scheduler

variable {σ : Type} {rename : LockId → LockId} (state : Scheduler σ) (actor : ThreadId)

private theorem threads_renamed :
    (state.renamed rename).threads = state.threads.renamed rename := rfl

private theorem monitors_renamed :
    (state.renamed rename).monitors = state.monitors.renamed rename := rfl

private theorem stoodBack_renamed :
    (state.renamed rename).stoodBack actor = (state.stoodBack actor).renamed rename := by
  have stands := state.threads.set_renamed rename actor .runnable
  unfold stoodBack
  rw [threads_renamed, RunStates.isRunning_renamed]
  split
  · exact congrArg (fun threads => { state.renamed rename with threads := threads }) stands
  · rfl

private theorem standingBack_renamed :
    (state.renamed rename).standingBack actor = (state.standingBack actor).renamed rename :=
  congrArg (Prepared.choosing (state.label actor)) (state.stoodBack_renamed actor)

private theorem target_renamed (thread : ThreadId) :
    (state.renamed rename).target thread = state.target thread := by
  have live : (state.renamed rename).isLive thread = state.isLive thread :=
    state.threads.contains_renamed rename thread
  unfold target
  rw [live]
  rfl

private theorem unblockAll_renamed (threads : List ThreadId) :
    (state.renamed rename).unblockAll threads = (state.unblockAll threads).renamed rename :=
  congrArg (fun threads => { state.renamed rename with threads := threads })
    (RunStates.foldl_unblock_renamed rename threads state.threads)

variable (rename) in
private theorem follow_renamed (monitors : MonitorTable) (transition : Transition)
    (reason : BlockReason) :
    { state.renamed rename with monitors := monitors.renamed rename }.follow transition
        (reason.renamed rename) =
      ({ state with monitors := monitors }.follow transition reason).renamed rename := by
  unfold follow
  rw [← unblockAll_renamed]
  exact congrArg (fun threads => Scheduler.unblockAll
      { state.renamed rename with monitors := monitors.renamed rename, threads := threads }
      transition.unblocked)
    (RunStates.foldl_setBlocked_renamed rename reason transition.blocked state.threads)

private theorem forget_renamed :
    (state.renamed rename).forget actor = (state.forget actor).renamed rename := by
  have threads : ((state.joins.joinersOf actor).foldl RunStates.unblock
      (state.threads.renamed rename)).remove actor =
        (((state.joins.joinersOf actor).foldl RunStates.unblock state.threads).remove
          actor).renamed rename := by
    rw [RunStates.foldl_unblock_renamed, RunStates.remove_renamed]
  exact congrArg (fun threads => { (state.renamed rename).forget actor with threads := threads })
    threads

private theorem announce_renamed :
    (state.renamed rename).announce actor =
      Prod.map id (renamed rename) (state.announce actor) := by
  have registered := Table.insert_mapValues (RunState.renamed rename) state.threads.table
    (actor.child (state.nextNumber actor)) .runnable
  rw [announce_eq, announce_eq]
  exact congrArg (fun table => (Except.ok (actor.child (state.nextNumber actor)),
    { (state.announce actor).2.renamed rename with threads := ⟨table⟩ })) registered

/-- The state in which `target` is woken if it is parked. -/
def unparked (target : ThreadId) : Scheduler σ :=
  if state.threads.reason? target = some BlockReason.park then
    { state with threads := state.threads.unblock target }
  else state

/-- The state in which `target`, if it is blocked, is blocked on the lock it wants. -/
def requeued (target : ThreadId) : Option LockId → Scheduler σ
  | some lock =>
      if state.threads.isBlocked target then
        { state with threads := state.threads.setBlocked target (.lock lock) }
      else state
  | none => state

theorem setInterrupt_eq (target : ThreadId) :
    state.setInterrupt target =
      (({ state with
          interrupted := state.interrupted.add target
          monitors := (state.monitors.interrupt target).2 }.unblockAll
            (state.monitors.interrupt target).1.unblocked).requeued target
              ((state.monitors.interrupt target).2.entering? target)).unparked target := rfl

private theorem unparked_renamed (target : ThreadId) :
    (state.renamed rename).unparked target = (state.unparked target).renamed rename := by
  simp only [unparked, threads_renamed, RunStates.reason?_renamed_eq_park_iff,
    RunStates.unblock_renamed]
  split
  · rfl
  · rfl

private theorem requeued_renamed (target : ThreadId) (wanted : Option LockId) :
    (state.renamed rename).requeued target (wanted.map rename) =
      (state.requeued target wanted).renamed rename := by
  cases wanted with
  | none => rfl
  | some lock =>
      have blocked := state.threads.setBlocked_renamed rename target (.lock lock)
      simp only [requeued, Option.map_some, threads_renamed, RunStates.isBlocked_renamed]
      split
      · exact congrArg (fun threads => { state.renamed rename with threads := threads }) blocked
      · rfl

private theorem grantPermit_renamed (target : ThreadId) :
    (state.renamed rename).grantPermit target = (state.grantPermit target).renamed rename := by
  simp only [grantPermit, threads_renamed, RunStates.reason?_renamed_eq_park_iff,
    RunStates.unblock_renamed]
  split
  · rfl
  · rfl

variable (injective : Function.Injective rename)

include injective

private theorem setInterrupt_renamed (target : ThreadId) :
    (state.renamed rename).setInterrupt target = (state.setInterrupt target).renamed rename := by
  have interrupted := MonitorTable.interrupt_renamed injective state.monitors target
  rw [setInterrupt_eq, setInterrupt_eq, ← unparked_renamed, ← requeued_renamed,
    ← unblockAll_renamed, ← MonitorTable.entering?_renamed, monitors_renamed, interrupted]
  rfl

private theorem prepareAction_renamed (action : Action) :
    (state.renamed rename).prepareAction actor (action.renamed rename) =
      (state.prepareAction actor action).renamed rename := by
  cases action with
  | yield site =>
      exact { state with places := state.places.insert actor site }.standingBack_renamed actor
  | enter lock =>
      have entered := MonitorTable.enter_renamed injective state.monitors actor lock
      have queued := state.follow_renamed rename (state.monitors.enter actor lock).2
        (state.monitors.enter actor lock).1 (.lock lock)
      simp only [prepareAction, Action.renamed, monitors_renamed, entered, Prod.map, id]
      split
      · rfl
      · exact congrArg (Prepared.choosing (state.label actor)) queued
  | leave lock =>
      have left := MonitorTable.leave_renamed injective state.monitors actor lock
      simp only [prepareAction, Action.renamed, monitors_renamed, left]
      cases state.monitors.leave actor lock with
      | error fault => rfl
      | ok effect =>
          have freed := state.follow_renamed rename effect.2 effect.1 (.lock lock)
          exact (congrArg (fun after => standingBack after actor) freed).trans
            (standingBack_renamed _ actor)
  | wait lock timed =>
      have waited := MonitorTable.wait_renamed injective state.monitors actor lock timed
      simp only [prepareAction, Action.renamed, monitors_renamed, waited]
      cases state.monitors.wait actor lock timed with
      | error fault => rfl
      | ok effect =>
          have freed := state.follow_renamed rename effect.2 effect.1 (.signal lock)
          exact (congrArg (fun after => standingBack after actor) freed).trans
            (standingBack_renamed _ actor)
  | notify lock =>
      have sent := MonitorTable.notify_renamed injective state.monitors actor lock
      simp only [prepareAction, Action.renamed, monitors_renamed, sent]
      cases state.monitors.notify actor lock with
      | error fault => rfl
      | ok monitors => rfl
  | notifyAll lock =>
      have sent := MonitorTable.notifyAll_renamed injective state.monitors actor lock
      simp only [prepareAction, Action.renamed, monitors_renamed, sent]
      cases state.monitors.notifyAll actor lock with
      | error fault => rfl
      | ok monitors => rfl
  | park =>
      have parked := state.threads.setBlocked_renamed rename actor .park
      change (if state.permits.contains actor = true then _ else _) =
        Prepared.renamed rename (if state.permits.contains actor = true then _ else _)
      split
      · rfl
      · change (if state.interrupted.contains actor = true then _ else _) =
          Prepared.renamed rename (if state.interrupted.contains actor = true then _ else _)
        split
        · rfl
        · exact congrArg (fun threads => Prepared.choosing (state.label actor)
            { state.renamed rename with threads := threads }) parked
  | unpark target =>
      simp only [prepareAction, Action.renamed, target_renamed, grantPermit_renamed]
      cases state.target target with
      | exited => rfl
      | unknown => rfl
      | live => rfl
  | join joinee timed =>
      have joining := state.threads.setBlocked_renamed rename actor (.join joinee)
      simp only [prepareAction, Action.renamed, target_renamed, standingBack_renamed]
      cases state.target joinee with
      | exited => rfl
      | unknown => rfl
      | live =>
          cases timed with
          | true => rfl
          | false =>
              exact congrArg (fun threads => Prepared.choosing (state.label actor)
                { state.renamed rename with
                  joins := state.joins.add joinee actor
                  threads := threads }) joining
  | interrupt target =>
      simp only [prepareAction, Action.renamed, target_renamed,
        setInterrupt_renamed state injective]
      cases state.target target with
      | exited => rfl
      | unknown => rfl
      | live => rfl

/-- Up to the choice, an event comes to the same under other lock numbers. -/
theorem prepare_renamed (event : Event) :
    (state.renamed rename).prepare actor (event.renamed rename) =
      (state.prepare actor event).renamed rename := by
  cases event with
  | announce =>
      simp only [prepare, Event.renamed, announce_renamed]
      rfl
  | bind host => rfl
  | exit => exact congrArg (Prepared.choosing (exitLabel actor)) (state.forget_renamed actor)
  | choose => exact state.standingBack_renamed actor
  | readInterrupt clear =>
      cases clear with
      | true => rfl
      | false => rfl
  | act action => exact state.prepareAction_renamed actor injective action

omit injective in
private theorem stalled_renamed :
    (state.renamed rename).stalled = renamedOutcome rename state.stalled := by
  have stuck : (state.renamed rename).stuckThreads =
      state.stuckThreads.map (StuckThread.renamed rename) := by
    simp only [stuckThreads, threads_renamed, RunStates.blocked_renamed, List.map_map]
    rfl
  unfold stalled
  rw [stuck, threads_renamed, RunStates.isEmpty_renamed]
  split
  · rfl
  · change (if state.rootExited = true then _ else _) = _
    split
    · rfl
    · rfl

private theorem promote_renamed (next : ThreadId) :
    (state.renamed rename).promote next =
      Prod.map (renamedOutcome rename) (renamed rename) (state.promote next) := by
  unfold promote
  rw [threads_renamed, monitors_renamed, RunStates.setRunning_renamed,
    MonitorTable.resume_renamed injective]
  cases state.threads.setRunning next with
  | error violation => rfl
  | ok threads =>
      dsimp only [Except.map, Prod.map, id]
      split
      · rfl
      · rw [MonitorTable.entering?_renamed]
        cases (state.monitors.resume next).2.entering? next with
        | none => rfl
        | some lock =>
            have demoted := threads.setBlocked_renamed rename next (.lock lock)
            exact congrArg (fun threads => ((.ok false : Outcome Bool),
              { state.renamed rename with
                threads := threads
                monitors := (state.monitors.resume next).2.renamed rename })) demoted

end Scheduler

section Retold

variable {σ : Type} [DecisionSource σ] {rename : LockId → LockId} {α β : Type}

/-- Whether the source answered its last question with a fault, which is what came of it all. -/
def Refused (result : Outcome α × Scheduler σ) : Prop :=
  ∃ (fault : Fault) (before : σ) (question : Question),
    result.1 = .error (.fault fault) ∧
      DecisionSource.decide before question = (.error fault, result.2.source)

/-- What came of an event on both sides.  A fault that the source answered with is passed on as
it is; in everything else the locks are replaced. -/
structure Retold (rename : LockId → LockId) (left right : Outcome α × Scheduler σ) : Prop where
  after : right.2 = left.2.renamed rename
  outcome : right.1 = renamedOutcome rename left.1 ∨ right.1 = left.1 ∧ Refused left

private theorem Retold.of_renamed (outcome : Outcome α) (state : Scheduler σ) :
    Retold rename (outcome, state) (renamedOutcome rename outcome, state.renamed rename) :=
  ⟨rfl, Or.inl rfl⟩

private theorem Retold.map {left right : Outcome α × Scheduler σ}
    (retold : Retold rename left right)
    (view : α → β) : Retold rename (left.1.map view, left.2) (right.1.map view, right.2) := by
  refine ⟨retold.after, ?_⟩
  rcases retold.outcome with same | ⟨same, fault, before, question, failed, refused⟩
  · left
    rw [same]
    cases left.1 with
    | error halt => rfl
    | ok value => rfl
  · right
    refine ⟨congrArg (Except.map view) same, fault, before, question, ?_, refused⟩
    rw [failed]
    rfl

namespace Scheduler

variable (state : Scheduler σ)

private theorem ask_renamed (question : Question) :
    Retold rename (state.ask question) ((state.renamed rename).ask question) := by
  unfold ask
  dsimp only [renamed]
  split
  · exact .of_renamed _ { state with decisions := state.decisions + 1 }
  · cases answered : DecisionSource.decide state.source question with
    | mk answer asked =>
        cases answer with
        | error fault => exact ⟨rfl, Or.inr ⟨rfl, fault, state.source, question, rfl, answered⟩⟩
        | ok chosen =>
            dsimp only
            split
            · exact ⟨rfl, Or.inl rfl⟩
            · exact ⟨rfl, Or.inl rfl⟩

private theorem select_renamed (label : String) (options : List ThreadId) :
    Retold rename (state.select label options) ((state.renamed rename).select label options) := by
  unfold select
  split
  · exact .of_renamed _ state
  · exact state.ask_renamed _

/-- The threads that can be chosen, and so the questions, are the same in every round. -/
theorem pickWithin_renamed (injective : Function.Injective rename) (label : String)
    (rounds : Nat) :
    ∀ state : Scheduler σ,
      Retold rename (pickWithin rounds state label)
        (pickWithin rounds (state.renamed rename) label) := by
  induction rounds with
  | zero =>
      intro state
      have stalled : Retold rename (state.stalled, state)
          ((state.renamed rename).stalled, state.renamed rename) := by
        rw [stalled_renamed]
        exact .of_renamed _ state
      exact stalled
  | succ rounds inductionHypothesis =>
      intro state
      unfold pickWithin
      rw [threads_renamed, RunStates.runnable_renamed, stalled_renamed]
      split
      · exact .of_renamed _ state
      next options nonempty =>
        obtain ⟨after, outcome⟩ := state.select_renamed label state.threads.runnable
        generalize (state.renamed rename).select label state.threads.runnable = twin
          at after outcome ⊢
        obtain ⟨answer, asked⟩ := twin
        obtain rfl : asked = _ := after
        rcases outcome with same | ⟨same, fault, before, question, failed, refused⟩
        · obtain rfl : answer = _ := same
          cases state.select label state.threads.runnable with
          | mk outcome asked =>
              cases outcome with
              | error halt => exact .of_renamed _ asked
              | ok next =>
                  dsimp only [renamedOutcome, Except.mapError]
                  rw [promote_renamed asked injective]
                  rcases asked.promote next with ⟨verdict, reached⟩
                  match verdict with
                  | .error halt => exact .of_renamed _ reached
                  | .ok true => exact .of_renamed (.ok (Schedule.resume next)) reached
                  | .ok false => exact inductionHypothesis reached
        · rw [failed] at same
          obtain rfl : answer = _ := same
          cases selected : state.select label state.threads.runnable with
          | mk outcome asked =>
              rw [selected] at failed refused
              obtain rfl : outcome = _ := failed
              exact ⟨rfl, Or.inr ⟨rfl, fault, before, question, rfl, refused⟩⟩

/-- An event and the same event under other lock numbers come to the same. -/
theorem step_renamed (injective : Function.Injective rename) (actor : ThreadId) (event : Event) :
    Retold rename (state.step actor event)
      ((state.renamed rename).step actor (event.renamed rename)) := by
  have live : (state.renamed rename).isLive actor = state.isLive actor :=
    state.threads.contains_renamed rename actor
  unfold step ifLive
  rw [live, apply_eq_complete, apply_eq_complete, prepare_renamed state actor injective]
  split
  · cases state.prepare actor event with
    | settled outcome after => exact .of_renamed outcome after
    | choosing label ready =>
        have rounds : (ready.renamed rename).threads.runnable.length =
            ready.threads.runnable.length :=
          congrArg List.length (ready.threads.runnable_renamed rename)
        have picked := pickWithin_renamed injective label ready.threads.runnable.length ready
        rw [Prepared.renamed, Prepared.complete_choosing, Prepared.complete_choosing, pick, pick,
          rounds]
        exact picked.map Reply.schedule
  · exact .of_renamed _ state

end Scheduler

end Retold

end ScheduleSearch
