import ScheduleSearch.Proofs.Monitor.Calls
import ScheduleSearch.Proofs.Scheduler.Prepare

/-!
# Refused events

An event is refused if it names a thread that is neither live nor has reached its exit, or if it
needs a lock that the acting thread does not own.  That is found out before the choice of the
next thread and before anything is changed.
-/

namespace ScheduleSearch

/-- Whether the fault is that of a refused event. -/
def Fault.isRefusal : Fault → Bool
  | untrackedThread _ | illegalMonitorState .. => true
  | _ => false

/-- The thread other than the acting one that an event is about. -/
def Event.target? : Event → Option ThreadId
  | .act (.unpark target) | .act (.interrupt target) | .act (.join target _) => some target
  | _ => none

/-- The lock that the acting thread has to own. -/
def Event.neededLock? : Event → Option LockId
  | .act (.leave lock) | .act (.wait lock _) | .act (.notify lock) | .act (.notifyAll lock) =>
      some lock
  | _ => none

private theorem Event.of_target? {event : Event} {target : ThreadId}
    (named : event.target? = some target) :
    event = .act (.unpark target) ∨ event = .act (.interrupt target) ∨
      ∃ timed, event = .act (.join target timed) := by
  cases event with
  | act action =>
      cases action with
      | unpark other =>
          cases named
          exact Or.inl rfl
      | interrupt other =>
          cases named
          exact Or.inr (Or.inl rfl)
      | join other timed =>
          cases named
          exact Or.inr (Or.inr ⟨timed, rfl⟩)
      | _ => cases named
  | _ => cases named

private theorem Event.of_neededLock? {event : Event} {lock : LockId}
    (needs : event.neededLock? = some lock) :
    event = .act (.leave lock) ∨ (∃ timed, event = .act (.wait lock timed)) ∨
      event = .act (.notify lock) ∨ event = .act (.notifyAll lock) := by
  cases event with
  | act action =>
      cases action with
      | leave other =>
          cases needs
          exact Or.inl rfl
      | wait other timed =>
          cases needs
          exact Or.inr (Or.inl ⟨timed, rfl⟩)
      | notify other =>
          cases needs
          exact Or.inr (Or.inr (Or.inl rfl))
      | notifyAll other =>
          cases needs
          exact Or.inr (Or.inr (Or.inr rfl))
      | _ => cases needs
  | _ => cases needs

/-- The thread that has to own a lock, and this lock. -/
def MonitorCall.owner? : MonitorCall → Option (ThreadId × LockId)
  | .leave thread lock | .wait thread lock _ | .notify thread lock | .notifyAll thread lock =>
      some (thread, lock)
  | .enter .. | .interrupt _ | .resume _ => none

namespace MonitorTable

variable {table : MonitorTable} {call : MonitorCall} {thread : ThreadId} {lock : LockId}

private theorem attempt_of_not_owns (needs : call.owner? = some (thread, lock))
    (foreign : ¬ table.Owns thread lock) :
    table.attempt call = .error (.illegalMonitorState thread lock) := by
  cases call with
  | enter other wanted => cases needs
  | leave other wanted =>
      cases needs
      exact leave_of_not_owns foreign
  | wait other wanted timed =>
      cases needs
      exact wait_of_not_owns timed foreign
  | notify other wanted =>
      cases needs
      rw [attempt, notify_of_not_owns foreign]
      rfl
  | notifyAll other wanted =>
      cases needs
      rw [attempt, notifyAll_of_not_owns foreign]
      rfl
  | interrupt other => cases needs
  | resume other => cases needs

private theorem attempt_of_owns (needs : call.owner? = some (thread, lock))
    (owns : table.Owns thread lock) : ∃ result, table.attempt call = .ok result := by
  cases call with
  | enter other wanted => cases needs
  | leave other wanted =>
      cases needs
      by_cases inner : 1 < (table.monitorOf lock).depth
      · exact ⟨_, leave_inner owns inner⟩
      · exact ⟨_, leave_last owns (Nat.not_lt.1 inner)⟩
  | wait other wanted timed =>
      cases needs
      cases timed with
      | true => exact ⟨_, wait_timed owns⟩
      | false => exact ⟨_, wait_untimed owns⟩
  | notify other wanted =>
      cases needs
      rw [attempt, notify_of_owns owns]
      exact ⟨_, rfl⟩
  | notifyAll other wanted =>
      cases needs
      rw [attempt, notifyAll_of_owns owns]
      exact ⟨_, rfl⟩
  | interrupt other => cases needs
  | resume other => cases needs

/-- A call is refused for a lock that is not owned, and for nothing else. -/
theorem attempt_refused (needs : call.owner? = some (thread, lock)) {fault : Fault}
    (refused : table.attempt call = .error fault) :
    ¬ table.Owns thread lock ∧ fault = .illegalMonitorState thread lock := by
  by_cases owns : table.Owns thread lock
  · obtain ⟨result, done⟩ := attempt_of_owns needs owns
    cases done.symm.trans refused
  · exact ⟨owns, Except.error.inj (refused.symm.trans (attempt_of_not_owns needs owns))⟩

end MonitorTable

namespace Scheduler

variable {σ : Type} {state after : Scheduler σ} {actor : ThreadId} {event : Event} {fault : Fault}

theorem target_eq_unknown_iff {thread : ThreadId} :
    state.target thread = .unknown ↔
      state.isLive thread = false ∧ state.hasExited thread = false := by
  unfold target
  cases state.hasExited thread <;> cases state.isLive thread <;> decide

/-- The faults with which an event of a live thread is refused. -/
inductive Refuses (state : Scheduler σ) (actor : ThreadId) (event : Event) : Fault → Prop
  | target {target : ThreadId} (named : event.target? = some target)
      (unknown : state.target target = .unknown) :
      Refuses state actor event (.untrackedThread target.name)
  | lock {lock : LockId} (needs : event.neededLock? = some lock)
      (foreign : ¬ state.monitors.Owns actor lock) :
      Refuses state actor event (.illegalMonitorState actor lock)

theorem Refuses.isContractViolation (refuses : state.Refuses actor event fault) :
    fault.isContractViolation = true := by
  cases refuses <;> rfl

/-- A refused event comes to no choice and leaves the state as it was. -/
theorem Refuses.prepare (refuses : state.Refuses actor event fault) :
    state.prepare actor event = .settled (.error (.fault fault)) state := by
  cases refuses with
  | @target target named unknown =>
      obtain rfl | rfl | ⟨timed, rfl⟩ := Event.of_target? named
      all_goals
        simp only [Scheduler.prepare, prepareAction, unknown]
        rfl
  | @lock lock needs foreign =>
      obtain rfl | ⟨timed, rfl⟩ | rfl | rfl := Event.of_neededLock? needs
      · simp only [Scheduler.prepare, prepareAction, MonitorTable.leave_of_not_owns foreign]
      · simp only [Scheduler.prepare, prepareAction, MonitorTable.wait_of_not_owns timed foreign]
      · simp only [Scheduler.prepare, prepareAction, MonitorTable.notify_of_not_owns foreign]
      · simp only [Scheduler.prepare, prepareAction, MonitorTable.notifyAll_of_not_owns foreign]

private theorem refuses_of_call {lock : LockId} (call : MonitorCall)
    (needs : event.neededLock? = some lock) (owner : call.owner? = some (actor, lock))
    (refused : state.monitors.attempt call = .error fault) : state.Refuses actor event fault := by
  obtain ⟨foreign, rfl⟩ := MonitorTable.attempt_refused owner refused
  exact .lock needs foreign

/-- An event fails before a choice only if it is refused. -/
theorem refuses_of_prepare
    (settled : state.prepare actor event = .settled (.error (.fault fault)) after) :
    state.Refuses actor event fault := by
  match event with
  | .announce =>
      simp only [prepare, announce] at settled
      split at settled <;> cases settled
  | .bind host => cases settled
  | .exit => cases settled
  | .choose => cases settled
  | .readInterrupt clear => cases settled
  | .act (.yield site) => cases settled
  | .act (.enter lock) =>
      simp only [prepare, prepareAction] at settled
      split at settled <;> cases settled
  | .act (.leave lock) =>
      simp only [prepare, prepareAction] at settled
      split at settled
      next refusal left =>
        cases settled
        exact refuses_of_call (.leave actor lock) rfl rfl left
      next => cases settled
  | .act (.wait lock timed) =>
      simp only [prepare, prepareAction] at settled
      split at settled
      next refusal waited =>
        cases settled
        exact refuses_of_call (.wait actor lock timed) rfl rfl waited
      next => cases settled
  | .act (.notify lock) =>
      simp only [prepare, prepareAction] at settled
      split at settled
      next refusal notified =>
        cases settled
        refine refuses_of_call (.notify actor lock) rfl rfl ?_
        rw [MonitorTable.attempt, notified]
        rfl
      next => cases settled
  | .act (.notifyAll lock) =>
      simp only [prepare, prepareAction] at settled
      split at settled
      next refusal notified =>
        cases settled
        refine refuses_of_call (.notifyAll actor lock) rfl rfl ?_
        rw [MonitorTable.attempt, notified]
        rfl
      next => cases settled
  | .act .park =>
      simp only [prepare, prepareAction] at settled
      split at settled
      · cases settled
      · split at settled <;> cases settled
  | .act (.unpark target) | .act (.interrupt target) =>
      simp only [prepare, prepareAction] at settled
      split at settled
      next => cases settled
      next unknown =>
        cases settled
        exact .target rfl unknown
      next => cases settled
  | .act (.join joinee timed) =>
      simp only [prepare, prepareAction] at settled
      split at settled
      next => cases settled
      next unknown =>
        cases settled
        exact .target rfl unknown
      next => split at settled <;> cases settled

variable [DecisionSource σ]

theorem step_of_not_live (stranger : state.isLive actor = false) (event : Event) :
    state.step actor event = (.error (untracked actor), state) := by
  rw [step, ifLive, stranger]
  rfl

theorem Refuses.step {fault : Fault} (refuses : state.Refuses actor event fault)
    (live : state.isLive actor = true) :
    state.step actor event = (.error (.fault fault), state) := by
  rw [step_of_live live, refuses.prepare]
  rfl

/-- What an event that succeeds is about is a live thread, or one that reached its exit. -/
theorem target_ne_unknown {target : ThreadId} {reply : Reply} (live : state.isLive actor = true)
    (stepped : state.step actor event = (.ok reply, after))
    (named : event.target? = some target) : state.target target ≠ .unknown := by
  intro unknown
  cases stepped.symm.trans ((Refuses.target named unknown).step live)

end Scheduler

end ScheduleSearch
