import ScheduleSearch.Proofs.Monitor.Calls
import ScheduleSearch.Proofs.Monitor.Views

/-!
# How threads come to own locks and to want them

A thread comes to own a lock by entering it while it is free, or by resuming when it wanted it,
and wants no lock then.  It comes to want a lock by finding it held, by giving it up for a while,
or by getting a signal or an interrupt while it awaits a signal on it.
-/

namespace ScheduleSearch.MonitorTable

variable {table after : MonitorTable} {call : MonitorCall} {transition : Transition}
  {thread : ThreadId} {lock : LockId}

/-- The locks that the thread owns. -/
def heldBy (table : MonitorTable) (thread : ThreadId) : List LockId :=
  (table.monitors.entries.filter fun entry => entry.2.isOwnedBy thread).map Prod.fst

theorem mem_heldBy : lock ∈ table.heldBy thread ↔ table.Owns thread lock := by
  constructor
  · intro member
    obtain ⟨⟨stored, monitor⟩, inside, rfl⟩ := List.mem_map.1 member
    obtain ⟨recorded, owned⟩ := List.mem_filter.1 inside
    have found : table.monitor? stored = some monitor := Table.get?_of_mem recorded
    rw [Owns, monitorOf, found]
    exact Monitor.isOwnedBy_iff.1 owned
  · rintro ⟨owner, held, same⟩
    cases found : table.monitor? lock with
    | none =>
        rw [monitorOf, found] at held
        cases held
    | some monitor =>
        rw [monitorOf, found] at held
        obtain ⟨⟨stored, value⟩, inside, equal, rfl⟩ := Table.mem_of_get? found
        obtain rfl := LockId.compare_eq_iff.1 equal
        refine List.mem_map.2 ⟨_, List.mem_filter.2 ⟨inside, ?_⟩, rfl⟩
        exact Monitor.isOwnedBy_iff.2 ⟨owner, held, same⟩

theorem owns_congr {first second : ThreadId} (same : first.lineage = second.lineage) :
    table.Owns first lock ↔ table.Owns second lock := by
  rw [Owns, Owns, same]

private theorem owns_of_same_owner {monitor : Monitor} {changed : LockId}
    {entering waiting : Table ThreadId LockId}
    (owns : (⟨table.monitors.insert changed monitor, entering, waiting⟩ : MonitorTable).Owns
      thread lock)
    (kept : monitor.owner = (table.monitorOf changed).owner) : table.Owns thread lock := by
  rw [Owns, monitorOf_insert] at owns
  split at owns
  next here =>
    rw [kept, ← here] at owns
    exact owns
  next => exact owns

private theorem owns_of_insert {monitor : Monitor} {changed : LockId} {owner : ThreadId}
    {entering waiting : Table ThreadId LockId} (owned : monitor.owner = some owner)
    (owns : (⟨table.monitors.insert changed monitor, entering, waiting⟩ : MonitorTable).Owns
      thread lock) :
    table.Owns thread lock ∨ (lock = changed ∧ owner.lineage = thread.lineage) := by
  obtain ⟨holder, held, same⟩ := owns
  rw [monitorOf_insert] at held
  split at held
  next here =>
    rw [owned] at held
    cases held
    exact Or.inr ⟨here, same⟩
  next => exact Or.inl ⟨holder, held, same⟩

private theorem not_owns_release {before : MonitorTable} {monitor : Monitor} :
    ¬ (before.release lock monitor).2.Owns thread lock := by
  rintro ⟨owner, held, -⟩
  rw [monitorOf_release, if_pos rfl] at held
  cases held

private theorem owns_of_release {before : MonitorTable} {monitor : Monitor} {released : LockId}
    (kept : before.monitors = table.monitors)
    (owns : (before.release released monitor).2.Owns thread lock) : table.Owns thread lock := by
  by_cases here : lock = released
  · subst here
    exact absurd owns not_owns_release
  · have same : before.monitorOf lock = table.monitorOf lock :=
      monitorOf_eq_of_monitor?_eq (by rw [monitor?, monitor?, kept])
    rw [Owns, monitorOf_release, if_neg here, same] at owns
    exact owns

/-- Whoever owns a lock after a call owned it before, or has entered it, or has resumed when it
wanted it. -/
theorem Move.owns (move : table.Move call transition after) (owns : after.Owns thread lock) :
    table.Owns thread lock ∨
      (after.entering = table.entering ∧ ∃ actor, actor.lineage = thread.lineage ∧
        call = .enter actor lock) ∨
      (after.entering? thread = none ∧ table.entering? thread = some lock) := by
  -- a lock gets an owner in two cases only, when it is free and entered and when it is granted
  cases move with
  | @seize actor entered free =>
      rcases owns_of_insert rfl owns with before | ⟨rfl, same⟩
      · exact Or.inl before
      · exact Or.inr (Or.inl ⟨rfl, actor, same, rfl⟩)
  | reenter held same => exact Or.inl (owns_of_same_owner owns rfl)
  | queue held different => exact Or.inl (owns_of_same_owner owns rfl)
  | leaveOnce own inner => exact Or.inl (owns_of_same_owner owns rfl)
  | leave own last => exact Or.inl (owns_of_release rfl owns)
  | requeue own => exact Or.inl (owns_of_release rfl owns)
  | await own => exact Or.inl (owns_of_release rfl owns)
  | notify own => exact Or.inl (owns_of_same_owner owns rfl)
  | notifyAll own => exact Or.inl (owns_of_same_owner owns rfl)
  | undisturbed notWaiting => exact Or.inl owns
  | interrupt waits saved => exact Or.inl (owns_of_same_owner owns rfl)
  | unhindered notEntering => exact Or.inl owns
  | hinder enters held => exact Or.inl owns
  | @grant actor wanted depth enters free saved =>
      rcases owns_of_insert rfl owns with before | ⟨rfl, same⟩
      · exact Or.inl before
      · refine Or.inr (Or.inr ⟨?_, (table.entering?_congr same.symm).trans enters⟩)
        rw [entering?_mk, Table.get?_erase, if_pos (ThreadId.compare_eq_iff.2 same.symm)]

/-- A thread that comes to own a lock wants none. -/
theorem Sound.owns_next (sound : table.Sound) (permitted : table.Permitted call)
    (owns : (table.next call).Owns thread lock) :
    table.Owns thread lock ∨
      ((table.next call).entering? thread = none ∧
        (table.entering? thread = some lock ∨ ∃ actor, actor.lineage = thread.lineage ∧
          call = .enter actor lock)) := by
  cases attempted : table.attempt call with
  | error fault =>
      rw [next_of_error attempted] at owns
      exact Or.inl owns
  | ok result =>
      rw [next_of_ok attempted] at owns ⊢
      rcases (sound.move attempted).owns owns with before | ⟨kept, actor, same, rfl⟩ | granted
      · exact Or.inl before
      · refine Or.inr ⟨?_, Or.inr ⟨actor, same, rfl⟩⟩
        rw [entering?, kept]
        exact (table.entering?_congr same.symm).trans (sound.of_unqueued permitted).1
      · exact Or.inr ⟨granted.1, Or.inl granted.2⟩

private theorem Sound.entering?_of_release (sound : table.Sound) {before : MonitorTable}
    {monitor : Monitor} {released : LockId}
    (signalled : monitor.signalled = (table.monitorOf released).signalled)
    (enters : (before.release released monitor).2.entering? thread = some lock) :
    before.entering? thread = some lock ∨ table.waitingFor? thread = some lock := by
  rw [entering?_release, signalled] at enters
  split at enters
  next woken =>
    cases enters
    exact Or.inr ((sound.waitingFor_iff thread lock).2 (queued_of_signalled woken))
  next => exact Or.inl enters

private theorem entering?_of_insert {actor : ThreadId} {wanted : LockId}
    {monitors : Table LockId Monitor} {waiting : Table ThreadId LockId}
    (enters : (⟨monitors, table.entering.insert actor wanted, waiting⟩ : MonitorTable).entering?
      thread = some lock) :
    table.entering? thread = some lock ∨ (actor.lineage = thread.lineage ∧ wanted = lock) := by
  rw [entering?_mk, Table.get?_insert] at enters
  split at enters
  next same => exact Or.inr ⟨(ThreadId.compare_eq_iff.1 same).symm, Option.some.inj enters⟩
  next => exact Or.inl enters

/-- Whoever wants a lock after a call wanted it before, or awaited a signal on it, or does not
own it then, since it found it held or gave it up. -/
theorem Sound.entering?_move (sound : table.Sound) (move : table.Move call transition after)
    (enters : after.entering? thread = some lock) :
    table.entering? thread = some lock ∨ table.waitingFor? thread = some lock ∨
      (¬ after.Owns thread lock ∧ ∃ actor, actor.lineage = thread.lineage ∧
        ((call = .enter actor lock ∧ ¬ table.Owns actor lock) ∨ call = .wait actor lock true)) := by
  cases move with
  | seize free => exact Or.inl enters
  | reenter held same => exact Or.inl enters
  | @queue actor owner wanted held different =>
      rcases entering?_of_insert enters with before | ⟨same, rfl⟩
      · exact Or.inl before
      · have foreign : ¬ table.Owns actor wanted := by
          rintro ⟨holder, holds, alike⟩
          rw [held] at holds
          cases holds
          exact different alike
        refine Or.inr (Or.inr ⟨fun owns => foreign ?_, actor, same, Or.inl ⟨rfl, foreign⟩⟩)
        exact (owns_congr same).2 (owns_of_same_owner owns rfl)
  | leaveOnce own inner => exact Or.inl enters
  | leave own last =>
      exact (sound.entering?_of_release rfl enters).imp_right Or.inl
  | @requeue actor wanted own =>
      rcases sound.entering?_of_release rfl enters with wants | awaited
      · rcases entering?_of_insert wants with before | ⟨same, rfl⟩
        · exact Or.inl before
        · exact Or.inr (Or.inr ⟨not_owns_release, actor, same, Or.inr rfl⟩)
      · exact Or.inr (Or.inl awaited)
  | await own =>
      exact (sound.entering?_of_release (signalled_awaiting sound _ _) enters).imp_right Or.inl
  | notify own => exact Or.inl enters
  | notifyAll own => exact Or.inl enters
  | undisturbed notWaiting => exact Or.inl enters
  | interrupt waits saved =>
      rcases entering?_of_insert enters with before | ⟨same, rfl⟩
      · exact Or.inl before
      · exact Or.inr (Or.inl ((table.waitingFor?_congr same.symm).trans waits))
  | unhindered notEntering => exact Or.inl enters
  | hinder wants held => exact Or.inl enters
  | grant wants free saved =>
      rw [entering?_mk, Table.get?_erase] at enters
      split at enters
      · cases enters
      · exact Or.inl enters

theorem Sound.entering?_next (sound : table.Sound)
    (enters : (table.next call).entering? thread = some lock) :
    table.entering? thread = some lock ∨ table.waitingFor? thread = some lock ∨
      (¬ (table.next call).Owns thread lock ∧ ∃ actor, actor.lineage = thread.lineage ∧
        ((call = .enter actor lock ∧ ¬ table.Owns actor lock) ∨ call = .wait actor lock true)) := by
  cases attempted : table.attempt call with
  | error fault =>
      rw [next_of_error attempted] at enters
      exact Or.inl enters
  | ok result =>
      rw [next_of_ok attempted] at enters ⊢
      exact sound.entering?_move (sound.move attempted) enters

end ScheduleSearch.MonitorTable
