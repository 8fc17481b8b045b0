import ScheduleSearch.Proofs.Monitor.Effects

/-!
# The spelling of an owner is not seen

A source of decisions may name the thread it chooses otherwise than it was offered, and a
monitor that is granted to this thread keeps the name.  Two tables of monitors that differ in
nothing but the names of owners ask the same of the run states in every operation and differ
in nothing else afterwards.
-/

namespace ScheduleSearch

/-- Both computations fail with the same fault, or both succeed with related results. -/
inductive ResultsAgree {ε α β : Type} (related : α → β → Prop) : Except ε α → Except ε β → Prop
  | error (fault : ε) : ResultsAgree related (.error fault) (.error fault)
  | ok {first : α} {second : β} (agree : related first second) :
      ResultsAgree related (.ok first) (.ok second)

theorem ResultsAgree.outcomes {ε α β : Type} {related : α → β → Prop} {first : Except ε α}
    {second : Except ε β} (agree : ResultsAgree related first second) :
    (∃ fault, first = .error fault ∧ second = .error fault) ∨
      ∃ left right, first = .ok left ∧ second = .ok right ∧ related left right := by
  cases agree with
  | error fault => exact Or.inl ⟨fault, rfl, rfl⟩
  | ok agree => exact Or.inr ⟨_, _, rfl, rfl, agree⟩

private theorem ResultsAgree.bind {ε α β γ δ : Type} {early : α → β → Prop} {late : γ → δ → Prop}
    {first : Except ε α} {second : Except ε β} {next : α → Except ε γ} {twin : β → Except ε δ}
    (agree : ResultsAgree early first second)
    (onward : ∀ {left right}, early left right → ResultsAgree late (next left) (twin right)) :
    ResultsAgree late (first >>= next) (second >>= twin) := by
  cases agree with
  | error fault => exact .error fault
  | ok agree => exact onward agree

namespace Monitor

/-- The monitors differ at most in the name of their owner. -/
def Alike (left right : Monitor) : Prop :=
  ∃ owner, right = { left with owner := owner } ∧
    left.owner.map ThreadId.lineage = owner.map ThreadId.lineage

variable {left right : Monitor}

private theorem Alike.refl (monitor : Monitor) : monitor.Alike monitor :=
  ⟨monitor.owner, rfl, rfl⟩

theorem Alike.isHeld (alike : left.Alike right) : left.isHeld = right.isHeld := by
  obtain ⟨owner, rfl, same⟩ := alike
  have held := congrArg Option.isSome same
  rw [Option.isSome_map, Option.isSome_map] at held
  exact held

private theorem Alike.isOwnedBy (alike : left.Alike right) (thread : ThreadId) :
    left.isOwnedBy thread = right.isOwnedBy thread := by
  obtain ⟨owner, rfl, same⟩ := alike
  unfold Monitor.isOwnedBy
  cases held : left.owner with
  | none =>
      rw [held] at same
      obtain rfl := Option.map_eq_none_iff.1 same.symm
      rfl
  | some holder =>
      rw [held] at same
      obtain ⟨twin, rfl, lineage⟩ := Option.map_eq_some_iff.1 same.symm
      change holder.same thread = twin.same thread
      rw [Bool.eq_iff_iff, ThreadId.same_iff_lineage, ThreadId.same_iff_lineage, lineage]

end Monitor

/-- The same locks are in use, and their monitors differ at most in the names of owners. -/
def MonitorsAlike (left right : Table LockId Monitor) : Prop :=
  ∀ lock, Option.Rel Monitor.Alike (left.get? lock) (right.get? lock)

namespace MonitorsAlike

variable {left right : Table LockId Monitor}

private theorem refl (monitors : Table LockId Monitor) : MonitorsAlike monitors monitors := by
  intro lock
  cases monitors.get? lock with
  | none => exact .none
  | some monitor => exact .some (.refl monitor)

theorem cases (alike : MonitorsAlike left right) (lock : LockId) :
    left.get? lock = none ∧ right.get? lock = none ∨
      ∃ monitor twin, left.get? lock = some monitor ∧ right.get? lock = some twin ∧
        monitor.Alike twin := by
  have both := alike lock
  revert both
  generalize left.get? lock = monitor?
  generalize right.get? lock = twin?
  intro both
  cases both with
  | none => exact Or.inl ⟨rfl, rfl⟩
  | some same => exact Or.inr ⟨_, _, rfl, rfl, same⟩

private theorem insert (alike : MonitorsAlike left right) {monitor twin : Monitor}
    (same : monitor.Alike twin) (lock : LockId) :
    MonitorsAlike (left.insert lock monitor) (right.insert lock twin) := by
  intro other
  rw [Table.get?_insert, Table.get?_insert]
  split
  · exact .some same
  · exact alike other

private theorem erase (alike : MonitorsAlike left right) (lock : LockId) :
    MonitorsAlike (left.erase lock) (right.erase lock) := by
  intro other
  rw [Table.get?_erase, Table.get?_erase]
  split
  · exact .none
  · exact alike other

end MonitorsAlike

namespace MonitorTable

/-- The tables differ at most in the names of the owners of their monitors. -/
def Alike (left right : MonitorTable) : Prop :=
  ∃ monitors, right = { left with monitors := monitors } ∧ MonitorsAlike left.monitors monitors

/-- An operation asks the same of the run states on both sides, and the tables stay alike. -/
def Twins (left right : Transition × MonitorTable) : Prop :=
  left.1 = right.1 ∧ left.2.Alike right.2

variable {left right : MonitorTable}

theorem Alike.refl (table : MonitorTable) : table.Alike table :=
  ⟨table.monitors, rfl, .refl table.monitors⟩

theorem Alike.entering? (alike : left.Alike right) (thread : ThreadId) :
    left.entering? thread = right.entering? thread := by
  obtain ⟨monitors, rfl, -⟩ := alike
  rfl

private theorem Alike.release (alike : left.Alike right) {monitor twin : Monitor}
    (same : monitor.Alike twin) (lock : LockId) :
    (left.release lock monitor).1 = (right.release lock twin).1 ∧
      (left.release lock monitor).2.Alike (right.release lock twin).2 := by
  obtain ⟨owner, rfl, -⟩ := same
  obtain ⟨monitors, rfl, alike⟩ := alike
  refine ⟨rfl, _, rfl, ?_⟩
  change MonitorsAlike (if monitor.released.isIdle then _ else _)
    (if monitor.released.isIdle then _ else _)
  split
  · exact alike.erase lock
  · exact alike.insert (.refl monitor.released) lock

private theorem Alike.owned (alike : left.Alike right) (thread : ThreadId) (lock : LockId) :
    ResultsAgree Monitor.Alike (left.owned thread lock) (right.owned thread lock) := by
  obtain ⟨monitors, rfl, alike⟩ := alike
  unfold MonitorTable.owned monitor?
  obtain ⟨unused, twinUnused⟩ | ⟨monitor, twin, found, twinFound, same⟩ := alike.cases lock
  · rw [unused, twinUnused]
    exact .error _
  · rw [found, twinFound]
    dsimp only
    rw [same.isOwnedBy]
    split
    · exact .ok same
    · exact .error _

theorem Alike.enter (alike : left.Alike right) (thread : ThreadId) (lock : LockId) :
    Twins (left.enter thread lock) (right.enter thread lock) := by
  obtain ⟨monitors, rfl, alike⟩ := alike
  have same : ((left.monitors.get? lock).getD .free).Alike ((monitors.get? lock).getD .free) := by
    obtain ⟨unused, twinUnused⟩ | ⟨monitor, twin, found, twinFound, same⟩ := alike.cases lock
    · rw [unused, twinUnused]
      exact .refl _
    · rw [found, twinFound]
      exact same
  unfold MonitorTable.enter monitor?
  dsimp only
  rw [same.isHeld, same.isOwnedBy]
  obtain ⟨owner, changed, lineage⟩ := same
  rw [changed]
  split
  · refine ⟨rfl, _, rfl, alike.insert ?_ lock⟩
    exact .refl _
  · split
    · refine ⟨rfl, _, rfl, alike.insert ?_ lock⟩
      exact ⟨owner, rfl, lineage⟩
    · refine ⟨rfl, _, rfl, alike.insert ?_ lock⟩
      exact ⟨owner, rfl, lineage⟩

theorem Alike.leave (alike : left.Alike right) (thread : ThreadId) (lock : LockId) :
    ResultsAgree Twins (left.leave thread lock) (right.leave thread lock) := by
  apply (alike.owned thread lock).bind
  rintro monitor - ⟨owner, rfl, lineage⟩
  have lower : Monitor.Alike { monitor with depth := monitor.depth - 1 }
      { monitor with owner := owner, depth := monitor.depth - 1 } := ⟨owner, rfl, lineage⟩
  dsimp only
  split
  · obtain ⟨monitors, rfl, alike⟩ := alike
    exact .ok ⟨rfl, _, rfl, alike.insert lower lock⟩
  · obtain ⟨woken, after⟩ := alike.release lower lock
    exact .ok ⟨congrArg Transition.unblock woken, after⟩

theorem Alike.wait (alike : left.Alike right) (thread : ThreadId) (lock : LockId) (timed : Bool) :
    ResultsAgree Twins (left.wait thread lock timed) (right.wait thread lock timed) := by
  apply (alike.owned thread lock).bind
  rintro monitor - ⟨owner, rfl, lineage⟩
  obtain ⟨monitors, rfl, alike⟩ := alike
  cases timed with
  | true =>
      have moved : Alike { left with entering := left.entering.insert thread lock }
          { left with monitors := monitors, entering := left.entering.insert thread lock } :=
        ⟨monitors, rfl, alike⟩
      have queued : Monitor.Alike (requeued monitor thread)
          { requeued monitor thread with owner := owner } := ⟨owner, rfl, lineage⟩
      obtain ⟨woken, after⟩ := moved.release queued lock
      exact .ok ⟨congrArg (Transition.mk []) woken, after⟩
  | false =>
      have moved : Alike { left with waiting := left.waiting.insert thread lock }
          { left with monitors := monitors, waiting := left.waiting.insert thread lock } :=
        ⟨monitors, rfl, alike⟩
      have queued : Monitor.Alike (awaiting monitor thread)
          { awaiting monitor thread with owner := owner } := ⟨owner, rfl, lineage⟩
      obtain ⟨woken, after⟩ := moved.release queued lock
      exact .ok ⟨congrArg (Transition.mk [thread]) woken, after⟩

theorem Alike.notify (alike : left.Alike right) (thread : ThreadId) (lock : LockId) :
    ResultsAgree Alike (left.notify thread lock) (right.notify thread lock) := by
  apply (alike.owned thread lock).bind
  rintro monitor - ⟨owner, rfl, lineage⟩
  obtain ⟨monitors, rfl, alike⟩ := alike
  refine .ok ⟨_, rfl, alike.insert ?_ lock⟩
  exact ⟨owner, rfl, lineage⟩

theorem Alike.notifyAll (alike : left.Alike right) (thread : ThreadId) (lock : LockId) :
    ResultsAgree Alike (left.notifyAll thread lock) (right.notifyAll thread lock) := by
  apply (alike.owned thread lock).bind
  rintro monitor - ⟨owner, rfl, lineage⟩
  obtain ⟨monitors, rfl, alike⟩ := alike
  refine .ok ⟨_, rfl, alike.insert ?_ lock⟩
  exact ⟨owner, rfl, lineage⟩

theorem Alike.interrupt (alike : left.Alike right) (thread : ThreadId) :
    Twins (left.interrupt thread) (right.interrupt thread) := by
  obtain ⟨monitors, rfl, alike⟩ := alike
  unfold MonitorTable.interrupt waitingFor? monitor?
  dsimp only
  split
  · exact ⟨rfl, monitors, rfl, alike⟩
  next lock waits =>
    obtain ⟨unused, twinUnused⟩ | ⟨monitor, twin, found, twinFound, same⟩ := alike.cases lock
    · rw [unused, twinUnused]
      exact ⟨rfl, monitors, rfl, alike⟩
    · rw [found, twinFound]
      dsimp only
      rw [same.isHeld]
      obtain ⟨owner, rfl, lineage⟩ := same
      dsimp only
      split
      · exact ⟨rfl, monitors, rfl, alike⟩
      · refine ⟨rfl, _, rfl, alike.insert ?_ lock⟩
        exact ⟨owner, rfl, lineage⟩

end MonitorTable

private theorem savedDepth?_congr (queue : List Waiter) {next twin : ThreadId}
    (same : next.lineage = twin.lineage) : savedDepth? queue next = savedDepth? queue twin := by
  unfold savedDepth?
  congr 2
  funext waiter
  rw [Bool.eq_iff_iff, ThreadId.same_iff_lineage, ThreadId.same_iff_lineage, same]

private theorem withoutWaiter_congr (queue : List Waiter) {next twin : ThreadId}
    (same : next.lineage = twin.lineage) : withoutWaiter queue next = withoutWaiter queue twin := by
  unfold withoutWaiter
  congr 1
  funext waiter
  rw [Bool.eq_iff_iff, ThreadId.same_iff_lineage, ThreadId.same_iff_lineage, same]

/-- Here the names may differ on both sides: the chosen thread becomes the owner. -/
theorem MonitorTable.Alike.resume {left right : MonitorTable} (alike : left.Alike right)
    {next twin : ThreadId} (same : next.lineage = twin.lineage) :
    ((left.resume next).1.blocked.isEmpty = (right.resume twin).1.blocked.isEmpty) ∧
      (left.resume next).2.Alike (right.resume twin).2 := by
  obtain ⟨monitors, rfl, alike⟩ := alike
  have enters : left.entering.get? next = left.entering.get? twin :=
    Table.get?_congr _ (ThreadId.compare_eq_iff.2 same)
  have erased : left.entering.erase next = left.entering.erase twin :=
    Table.erase_congr _ (ThreadId.compare_eq_iff.2 same)
  unfold MonitorTable.resume MonitorTable.entering? monitor?
  dsimp only
  rw [enters, erased]
  split
  · exact ⟨rfl, monitors, rfl, alike⟩
  next lock found =>
    obtain ⟨unused, twinUnused⟩ | ⟨monitor, other, found, twinFound, both⟩ := alike.cases lock
    · rw [unused, twinUnused]
      exact ⟨rfl, monitors, rfl, alike⟩
    · rw [found, twinFound]
      dsimp only
      rw [both.isHeld]
      obtain ⟨owner, rfl, -⟩ := both
      split
      · exact ⟨rfl, monitors, rfl, alike⟩
      · rw [savedDepth?_congr _ same, withoutWaiter_congr _ same]
        refine ⟨rfl, _, rfl, alike.insert ?_ lock⟩
        exact ⟨some twin, rfl, congrArg some same⟩

end ScheduleSearch
