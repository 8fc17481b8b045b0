import ScheduleSearch.Exploration.EventProgram
import ScheduleSearch.Proofs.Scheduler.Choice
import ScheduleSearch.Proofs.State.Sizes

/-!
# Runs come to an end

Every event of a program either is listed, and shortens the program, or is the exit of a live
thread.  An event makes at most one thread live.  So twice the number of listed events and the
number of live threads add up to a measure that every event decreases, and a run ends within
`EventProgram.steps` events: with no live thread left, or with a fault.
-/

namespace ScheduleSearch

namespace Scheduler

variable {σ : Type} {state : Scheduler σ}

private theorem size_follow (state : Scheduler σ) (transition : Transition) (reason : BlockReason) :
    (state.follow transition reason).threads.size = state.threads.size := by
  have kept : ∀ (states : RunStates) thread,
      (states.setBlocked thread reason).size = states.size :=
    fun states thread => states.size_set thread _
  have blocked := RunStates.size_foldl kept transition.blocked state.threads
  have unblocked := RunStates.size_foldl RunStates.size_unblock transition.unblocked
    (transition.blocked.foldl (fun threads thread => threads.setBlocked thread reason)
      state.threads)
  exact unblocked.trans blocked

private theorem size_adjust (state : Scheduler σ) (p : Prop) [Decidable p] {threads : RunStates}
    (kept : threads.size = state.threads.size) :
    (if p then { state with threads := threads } else state).threads.size =
      state.threads.size := by
  split
  · exact kept
  · rfl

private theorem size_standingBack (state : Scheduler σ) (thread : ThreadId) :
    (state.standingBack thread).state.threads.size = state.threads.size := by
  exact state.size_adjust _ (state.threads.size_set thread _)

private theorem size_grantPermit (state : Scheduler σ) (target : ThreadId) :
    (state.grantPermit target).threads.size = state.threads.size := by
  unfold grantPermit
  split
  · exact state.threads.size_unblock target
  · rfl

private theorem size_setInterrupt (state : Scheduler σ) (target : ThreadId) :
    (state.setInterrupt target).threads.size = state.threads.size := by
  have moved := RunStates.size_foldl RunStates.size_unblock
    (state.monitors.interrupt target).1.unblocked state.threads
  unfold setInterrupt
  apply (size_adjust _ _ (RunStates.size_unblock _ _)).trans
  split
  · exact (size_adjust _ _ (RunStates.size_set _ _ _)).trans moved
  · exact moved

private theorem size_prepareAction (state : Scheduler σ) (actor : ThreadId) (action : Action) :
    (state.prepareAction actor action).state.threads.size = state.threads.size := by
  cases action with
  | yield site => exact size_standingBack _ actor
  | enter lock =>
      unfold prepareAction
      dsimp only
      split
      · rfl
      · exact size_follow _ _ _
  | leave lock =>
      unfold prepareAction
      dsimp only
      split
      · rfl
      · exact (size_standingBack _ actor).trans (size_follow _ _ _)
  | wait lock timed =>
      unfold prepareAction
      dsimp only
      split
      · rfl
      · exact (size_standingBack _ actor).trans (size_follow _ _ _)
  | notify lock =>
      unfold prepareAction
      dsimp only
      split
      · rfl
      · rfl
  | notifyAll lock =>
      unfold prepareAction
      dsimp only
      split
      · rfl
      · rfl
  | park =>
      unfold prepareAction
      dsimp only
      split
      · rfl
      · split
        · rfl
        · exact state.threads.size_set actor _
  | unpark target =>
      unfold prepareAction
      dsimp only
      split
      · rfl
      · rfl
      · exact state.size_grantPermit target
  | join joinee timed =>
      unfold prepareAction
      dsimp only
      split
      · rfl
      · rfl
      · split
        · exact state.size_standingBack actor
        · exact state.threads.size_set actor _
  | interrupt target =>
      unfold prepareAction
      dsimp only
      split
      · rfl
      · rfl
      · exact state.size_setInterrupt target

private theorem size_forget {actor : ThreadId} {run : RunState}
    (live : state.threads.state? actor = some run) :
    (state.forget actor).threads.size + 1 = state.threads.size := by
  have woken := RunStates.size_foldl RunStates.size_unblock (state.joins.joinersOf actor)
    state.threads
  have still : ∃ run, ((state.joins.joinersOf actor).foldl RunStates.unblock
      state.threads).state? actor = some run := by
    rw [RunStates.state?_foldl_unblock, live]
    split
    · exact ⟨_, rfl⟩
    · exact ⟨_, rfl⟩
  obtain ⟨run, still⟩ := still
  rw [← woken]
  exact RunStates.size_remove still

private theorem size_prepare_le {actor : ThreadId} {run : RunState}
    (live : state.threads.state? actor = some run) (event : Event) :
    (state.prepare actor event).state.threads.size ≤ state.threads.size + 1 := by
  cases event with
  | announce =>
      rw [prepare, announce_eq]
      exact Table.size_insert_le state.threads.table _ _
  | bind host => exact Nat.le_succ _
  | exit =>
      have gone := size_forget live
      change (state.forget actor).threads.size ≤ _
      omega
  | choose =>
      have same := state.size_standingBack actor
      change (state.standingBack actor).state.threads.size ≤ _
      omega
  | readInterrupt clear =>
      cases clear with
      | true => exact Nat.le_succ _
      | false => exact Nat.le_succ _
  | act action =>
      have same := state.size_prepareAction actor action
      change (state.prepareAction actor action).state.threads.size ≤ _
      omega

private theorem size_promote (state : Scheduler σ) (next : ThreadId) :
    (state.promote next).2.threads.size = state.threads.size := by
  unfold promote
  split
  next => rfl
  next threads started =>
    have same : threads.size = state.threads.size := by
      unfold RunStates.setRunning at started
      split at started
      next =>
        obtain rfl := Except.ok.inj started
        exact state.threads.size_set next _
      next => cases started
    dsimp only
    split
    · exact same
    · dsimp only
      split
      · exact (threads.size_set next _).trans same
      · exact same

variable [DecisionSource σ]

private theorem size_complete {actor : ThreadId} {prepared : Prepared σ}
    (ready : prepared.Ready actor) :
    prepared.complete.2.threads.size = prepared.state.threads.size := by
  cases prepared with
  | settled outcome after => rfl
  | choosing label state =>
      obtain ⟨coherent, nobody⟩ := ready
      exact Coherent.pick_preserves (P := fun after => after.threads.size = state.threads.size)
        (fun _ _ same => same) (fun _ _ same => (size_promote _ _).trans same)
        label _ coherent nobody rfl

private theorem Coherent.size_step_le (coherent : state.Coherent) {actor : ThreadId}
    (runs : state.threads.state? actor = some .running) (event : Event) :
    (state.step actor event).2.threads.size ≤ state.threads.size + 1 := by
  rw [step_of_live (isLive_iff.2 ⟨_, runs⟩), size_complete (coherent.ready runs event)]
  exact size_prepare_le runs event

private theorem Coherent.size_step_exit (coherent : state.Coherent) {actor : ThreadId}
    (runs : state.threads.state? actor = some .running) :
    (state.step actor .exit).2.threads.size + 1 = state.threads.size := by
  rw [step_of_live (isLive_iff.2 ⟨_, runs⟩), size_complete (coherent.ready runs .exit)]
  exact size_forget runs

end Scheduler

/-- How an event with this outcome ends the run, if it does. -/
def Ending.of? : Outcome Reply → Option Ending
  | .error halt => some (.halted halt)
  | .ok (.schedule .quiescent) => some .quiescent
  | .ok _ => none

private theorem Ending.of?_ok {reply : Reply} (goesOn : reply ≠ .schedule .quiescent) :
    Ending.of? (.ok reply) = none := by
  unfold of?
  split
  next impossible => cases impossible
  next same => exact absurd (Except.ok.inj same) goesOn
  next => rfl

/-- Every thread reached its exit, or the execution failed with a fault. -/
def Ending.Concluded : Ending → Prop
  | quiescent => True
  | halted (.fault _) => True
  | halted (.violation _) => False
  | unfinished => False

/-- An event that goes through and leaves threads live does not end the run. -/
theorem Scheduler.Coherent.goesOn_or_concluded {σ : Type} [DecisionSource σ]
    {state : Scheduler σ} (coherent : state.Coherent) {actor : ThreadId}
    (runs : state.threads.state? actor = some .running) (event : Event) :
    match Ending.of? (state.step actor event).1 with
    | some ending => ending.Concluded
    | none => ∃ next, (state.step actor event).2.threads.state? next = some .running := by
  have reported := coherent.reported runs event
  cases stepped : state.step actor event with
  | mk outcome after =>
      rw [stepped] at reported
      obtain ⟨-, known⟩ := reported
      match outcome with
      | .ok (.schedule (.resume next)) => exact ⟨next, known⟩
      | .ok (.schedule .goOn) => exact ⟨actor, known⟩
      | .ok (.schedule .quiescent) => trivial
      | .ok (.announced child) => exact ⟨actor, known⟩
      | .ok (.flag isSet) => exact ⟨actor, known⟩
      | .ok .done => exact ⟨actor, known⟩
      | .error (.fault fault) => trivial
      | .error (.violation violation) => exact False.elim known

namespace EventProgram

private theorem size_next (program : EventProgram) (thread : ThreadId) :
    (program.next thread).2.size + 1 = program.size ∨
      program.next thread = (.exit, program) := by
  unfold next
  split
  next event rest listed =>
    left
    have total := Table.sum_values_insert program.lists listed rest List.length
    simp only [size, List.length_flatten]
    rw [List.length_cons] at total
    omega
  next => exact Or.inr rfl

variable {σ : Type}

/-- More than the number of events that are still to come. -/
def work (program : EventProgram) (state : Scheduler σ) : Nat :=
  2 * program.size + state.threads.size

variable [DecisionSource σ]

theorem runWithin_succ (steps : Nat) (program : EventProgram) {state : Scheduler σ}
    {actor : ThreadId} (runs : state.running? = some actor) :
    runWithin (steps + 1) program state =
      let (event, rest) := program.next actor
      let (outcome, after) := state.step actor event
      match Ending.of? outcome with
      | some ending => ⟨[(actor, event)], ending, after⟩
      | none =>
          let run := runWithin steps rest after
          { run with history := (actor, event) :: run.history } := by
  rw [runWithin, runs]
  dsimp only
  split
  next halt halted stepped =>
    rw [stepped]
    rfl
  next ended stepped =>
    rw [stepped]
    rfl
  next reply after others stepped =>
    rw [stepped]
    have ongoing : Ending.of? (.ok reply) = none := by
      refine Ending.of?_ok ?_
      rintro rfl
      exact others rfl
    rw [ongoing]

/-- Every event of the running thread leaves less to be done. -/
theorem work_next (program : EventProgram) {state : Scheduler σ} (coherent : state.Coherent)
    {actor : ThreadId} (runs : state.threads.state? actor = some .running) :
    (program.next actor).2.work (state.step actor (program.next actor).1).2 <
      program.work state := by
  unfold work
  rcases program.size_next actor with shorter | exits
  · have grown := coherent.size_step_le runs (program.next actor).1
    omega
  · have gone := coherent.size_step_exit runs
    rw [exits]
    dsimp only
    omega

/-- With more events allowed than there is work, the run comes to an end. -/
theorem concluded_runWithin (steps : Nat) :
    ∀ (program : EventProgram) {state : Scheduler σ}, state.Coherent →
      (∃ actor, state.threads.state? actor = some .running) → program.work state < steps →
        (runWithin steps program state).ending.Concluded := by
  induction steps with
  | zero =>
      intro program state _ _ enough
      exact absurd enough (Nat.not_lt_zero _)
  | succ steps inductionHypothesis =>
      intro program state coherent someone enough
      cases found : state.running? with
      | none =>
          obtain ⟨actor, runs⟩ := someone
          exact absurd runs (RunStates.running?_eq_none_iff.1 found actor)
      | some actor =>
          have runs := RunStates.state?_of_running? found
          have less := program.work_next coherent runs
          have next := coherent.goesOn_or_concluded runs (program.next actor).1
          have kept := (coherent.reported runs (program.next actor).1).1
          rw [runWithin_succ steps program found]
          dsimp only
          split
          next ending ended =>
            rw [ended] at next
            exact next
          next ongoing =>
            rw [ongoing] at next
            exact inductionHypothesis _ kept next (by omega)

/-- A run of a program comes to an end, whatever the decisions. -/
theorem concluded_run (program : EventProgram) (source : σ) (maxDecisions : Nat) :
    (program.run source maxDecisions).ending.Concluded := by
  have coherent := Scheduler.coherent_begun source maxDecisions rootHost
  have runs := Scheduler.state?_begun source maxDecisions rootHost .root
  have enough : program.work ((Scheduler.fresh source maxDecisions).begin rootHost).2 <
      program.steps := Nat.lt_succ_self (2 * program.size + 1)
  exact concluded_runWithin program.steps program coherent ⟨.root, runs⟩ enough

end EventProgram

end ScheduleSearch
