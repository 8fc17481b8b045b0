import ScheduleSearch.Proofs.Monitor.Spelling
import ScheduleSearch.Proofs.Scheduler.Lifecycle

/-!
# Executions under different sources

Two executions are alike if they differ in nothing but their sources and the names of owners.
Alike executions stay alike under every event up to the choice of the next thread, and when the
same thread is let run, by whatever name.
-/

namespace ScheduleSearch

namespace Scheduler

variable {σ τ : Type} {left : Scheduler σ} {source : τ} {right : Scheduler τ}

/-- The state with other monitors and another source. -/
def become (state : Scheduler σ) (monitors : MonitorTable) (source : τ) : Scheduler τ where
  registry := state.registry
  threads := state.threads
  monitors := monitors
  joins := state.joins
  permits := state.permits
  interrupted := state.interrupted
  exited := state.exited
  places := state.places
  rootExited := state.rootExited
  decisions := state.decisions
  maxDecisions := state.maxDecisions
  source := source

/-- The states differ in nothing but the names of owners and the source, which is the given
one on the right. -/
def Alike (left : Scheduler σ) (source : τ) (right : Scheduler τ) : Prop :=
  ∃ monitors, right = left.become monitors source ∧ left.monitors.Alike monitors

theorem Alike.threads (alike : left.Alike source right) : left.threads = right.threads := by
  obtain ⟨monitors, rfl, -⟩ := alike
  rfl

theorem Alike.monitors (alike : left.Alike source right) : left.monitors.Alike right.monitors := by
  obtain ⟨monitors, rfl, alike⟩ := alike
  exact alike

theorem Alike.stalled (alike : left.Alike source right) : left.stalled = right.stalled := by
  obtain ⟨monitors, rfl, -⟩ := alike
  rfl

end Scheduler

namespace Prepared

variable {σ τ : Type}

/-- Both sides are settled with one outcome, or choose under one label, in alike states. -/
inductive Alike : Prepared σ → τ → Prepared τ → Prop
  | settled (outcome : Outcome Reply) {left : Scheduler σ} {source : τ} {right : Scheduler τ}
      (alike : left.Alike source right) :
      Alike (settled outcome left) source (settled outcome right)
  | choosing (label : String) {left : Scheduler σ} {source : τ} {right : Scheduler τ}
      (alike : left.Alike source right) :
      Alike (choosing label left) source (choosing label right)

end Prepared

namespace Scheduler

variable {σ τ : Type} {left : Scheduler σ} {source : τ} {right : Scheduler τ}

private theorem Alike.adjust (alike : left.Alike source right) (test : RunStates → Prop)
    [DecidablePred test] (change : RunStates → RunStates) :
    (if test left.threads then { left with threads := change left.threads } else left).Alike source
      (if test right.threads then { right with threads := change right.threads } else right) := by
  obtain ⟨monitors, rfl, alike⟩ := alike
  by_cases holds : test left.threads
  · have twin : test (left.become monitors source).threads := holds
    rw [if_pos holds, if_pos twin]
    exact ⟨monitors, rfl, alike⟩
  · have twin : ¬ test (left.become monitors source).threads := holds
    rw [if_neg holds, if_neg twin]
    exact ⟨monitors, rfl, alike⟩

private theorem Alike.label (alike : left.Alike source right) (thread : ThreadId) :
    left.label thread = right.label thread := by
  obtain ⟨monitors, rfl, -⟩ := alike
  rfl

private theorem Alike.target (alike : left.Alike source right) (thread : ThreadId) :
    left.target thread = right.target thread := by
  obtain ⟨monitors, rfl, -⟩ := alike
  rfl

private theorem Alike.standingBack (alike : left.Alike source right) (actor : ThreadId) :
    (left.standingBack actor).Alike source (right.standingBack actor) := by
  have stood := alike.adjust (fun threads => threads.isRunning actor = true)
    (fun threads => threads.setRunnable actor)
  unfold Scheduler.standingBack
  rw [alike.label]
  exact .choosing _ stood

private theorem Alike.follow (alike : left.Alike source right)
    {effect twin : Transition × MonitorTable}
    (twins : MonitorTable.Twins effect twin) (reason : BlockReason) :
    ({ left with monitors := effect.2 }.follow effect.1 reason).Alike source
      ({ right with monitors := twin.2 }.follow twin.1 reason) := by
  obtain ⟨monitors, rfl, -⟩ := alike
  obtain ⟨same, after⟩ := twins
  rw [same]
  exact ⟨twin.2, rfl, after⟩

private theorem Alike.grantPermit (alike : left.Alike source right) (target : ThreadId) :
    (left.grantPermit target).Alike source (right.grantPermit target) := by
  obtain ⟨monitors, rfl, alike⟩ := alike
  unfold Scheduler.grantPermit
  by_cases parked : left.threads.reason? target = some BlockReason.park
  · have twin : (left.become monitors source).threads.reason? target = some BlockReason.park :=
      parked
    rw [if_pos parked, if_pos twin]
    exact ⟨monitors, rfl, alike⟩
  · have twin : ¬ (left.become monitors source).threads.reason? target = some BlockReason.park :=
      parked
    rw [if_neg parked, if_neg twin]
    exact ⟨monitors, rfl, alike⟩

private theorem Alike.setInterrupt (alike : left.Alike source right) (target : ThreadId) :
    (left.setInterrupt target).Alike source (right.setInterrupt target) := by
  obtain ⟨same, after⟩ := alike.monitors.interrupt target
  have moved : Alike
      ({ left with
        interrupted := left.interrupted.add target
        monitors := (left.monitors.interrupt target).2 }.unblockAll
          (left.monitors.interrupt target).1.unblocked)
      source
      ({ right with
        interrupted := right.interrupted.add target
        monitors := (right.monitors.interrupt target).2 }.unblockAll
          (right.monitors.interrupt target).1.unblocked) := by
    obtain ⟨monitors, rfl, -⟩ := alike
    rw [same]
    exact ⟨_, rfl, after⟩
  unfold Scheduler.setInterrupt
  dsimp only
  refine Alike.adjust ?_ (fun threads => threads.reason? target = some BlockReason.park)
    (fun threads => threads.unblock target)
  rw [← after.entering?]
  split
  next lock enters =>
    exact moved.adjust (fun threads => threads.isBlocked target = true)
      (fun threads => threads.setBlocked target (.lock lock))
  next => exact moved

private theorem Alike.prepareAction (alike : left.Alike source right) (actor : ThreadId)
    (action : Action) :
    (left.prepareAction actor action).Alike source (right.prepareAction actor action) := by
  cases action with
  | yield site =>
      obtain ⟨monitors, rfl, alike⟩ := alike
      have placed : Alike { left with places := left.places.insert actor site } source
          { left.become monitors source with places := left.places.insert actor site } :=
        ⟨monitors, rfl, alike⟩
      exact placed.standingBack actor
  | enter lock =>
      have effect := alike.monitors.enter actor lock
      have queued := alike.follow effect (.lock lock)
      obtain ⟨same, after⟩ := effect
      unfold Scheduler.prepareAction
      dsimp only
      rw [alike.label]
      rw [← same] at queued ⊢
      split
      · obtain ⟨monitors, rfl, -⟩ := alike
        exact .settled _ ⟨_, rfl, after⟩
      · exact .choosing _ queued
  | leave lock =>
      unfold Scheduler.prepareAction
      dsimp only
      rcases (alike.monitors.leave actor lock).outcomes with
        ⟨fault, refused, twinRefused⟩ | ⟨effect, twin, given, twinGiven, twins⟩
      · rw [refused, twinRefused]
        exact .settled _ alike
      · rw [given, twinGiven]
        exact (alike.follow twins _).standingBack actor
  | wait lock timed =>
      unfold Scheduler.prepareAction
      dsimp only
      rcases (alike.monitors.wait actor lock timed).outcomes with
        ⟨fault, refused, twinRefused⟩ | ⟨effect, twin, given, twinGiven, twins⟩
      · rw [refused, twinRefused]
        exact .settled _ alike
      · rw [given, twinGiven]
        exact (alike.follow twins _).standingBack actor
  | notify lock =>
      unfold Scheduler.prepareAction
      dsimp only
      rcases (alike.monitors.notify actor lock).outcomes with
        ⟨fault, refused, twinRefused⟩ | ⟨effect, twin, sent, twinSent, after⟩
      · rw [refused, twinRefused]
        exact .settled _ alike
      · rw [sent, twinSent]
        obtain ⟨monitors, rfl, -⟩ := alike
        exact .settled _ ⟨_, rfl, after⟩
  | notifyAll lock =>
      unfold Scheduler.prepareAction
      dsimp only
      rcases (alike.monitors.notifyAll actor lock).outcomes with
        ⟨fault, refused, twinRefused⟩ | ⟨effect, twin, sent, twinSent, after⟩
      · rw [refused, twinRefused]
        exact .settled _ alike
      · rw [sent, twinSent]
        obtain ⟨monitors, rfl, -⟩ := alike
        exact .settled _ ⟨_, rfl, after⟩
  | park =>
      obtain ⟨monitors, rfl, alike⟩ := alike
      change Prepared.Alike (if left.permits.contains actor = true then _ else _)
        source (if left.permits.contains actor = true then _ else _)
      split
      · exact .settled _ ⟨monitors, rfl, alike⟩
      · change Prepared.Alike (if left.interrupted.contains actor = true then _ else _)
          source (if left.interrupted.contains actor = true then _ else _)
        split
        · exact .settled _ ⟨monitors, rfl, alike⟩
        · exact .choosing _ ⟨monitors, rfl, alike⟩
  | unpark target =>
      unfold Scheduler.prepareAction
      dsimp only
      rw [← alike.target target]
      split
      · exact .settled _ alike
      · exact .settled _ alike
      · exact .settled _ (alike.grantPermit target)
  | join joinee timed =>
      unfold Scheduler.prepareAction
      dsimp only
      rw [← alike.target joinee]
      split
      · exact .settled _ alike
      · exact .settled _ alike
      · split
        · exact alike.standingBack actor
        · obtain ⟨monitors, rfl, alike⟩ := alike
          exact .choosing _ ⟨monitors, rfl, alike⟩
  | interrupt target =>
      unfold Scheduler.prepareAction
      dsimp only
      rw [← alike.target target]
      split
      · exact .settled _ alike
      · exact .settled _ alike
      · exact .settled _ (alike.setInterrupt target)

theorem Alike.prepare (alike : left.Alike source right) (actor : ThreadId) (event : Event) :
    (left.prepare actor event).Alike source (right.prepare actor event) := by
  cases event with
  | announce =>
      obtain ⟨monitors, rfl, alike⟩ := alike
      unfold Scheduler.prepare
      rw [announce_eq, announce_eq]
      exact .settled _ ⟨monitors, rfl, alike⟩
  | bind host =>
      obtain ⟨monitors, rfl, alike⟩ := alike
      exact .settled _ ⟨monitors, rfl, alike⟩
  | exit =>
      obtain ⟨monitors, rfl, alike⟩ := alike
      exact .choosing _ ⟨monitors, rfl, alike⟩
  | choose => exact alike.standingBack actor
  | readInterrupt clear =>
      obtain ⟨monitors, rfl, alike⟩ := alike
      cases clear with
      | true => exact .settled _ ⟨monitors, rfl, alike⟩
      | false => exact .settled _ ⟨monitors, rfl, alike⟩
  | act action => exact alike.prepareAction actor action

/-- Letting a thread run comes to the same by whatever name it is called. -/
theorem Alike.promote (alike : left.Alike source right) {next twin : ThreadId}
    (same : next.lineage = twin.lineage) :
    (left.promote next).1 = (right.promote twin).1 ∧
      (left.promote next).2.Alike source (right.promote twin).2 := by
  obtain ⟨blocked, after⟩ := alike.monitors.resume same
  have entering : (left.monitors.resume next).2.entering? next =
      (right.monitors.resume twin).2.entering? twin := by
    rw [← after.entering?]
    exact MonitorTable.entering?_congr _ same
  unfold Scheduler.promote
  rw [alike.threads, RunStates.setRunning_congr _ same]
  split
  · exact ⟨rfl, alike⟩
  next threads started =>
    dsimp only
    rw [blocked, entering]
    obtain ⟨monitors, rfl, -⟩ := alike
    split
    · exact ⟨rfl, _, rfl, after⟩
    · have demoted : ∀ lock, threads.setBlocked next (.lock lock) =
          threads.setBlocked twin (.lock lock) := fun lock =>
        RunStates.set_congr threads same _
      refine ⟨rfl, ?_⟩
      simp only [demoted]
      exact ⟨_, rfl, after⟩

end Scheduler

end ScheduleSearch
