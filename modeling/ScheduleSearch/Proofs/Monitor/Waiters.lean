import ScheduleSearch.Proofs.Monitor.Ownership

/-!
# Waiters that are let go

A waiter leaves the signal queue of a lock when it is interrupted, or when the owner gives the
lock up while a signal is pending.  A signal is pending only since an owner of the lock sent it,
and only as long as that thread goes on owning the lock.
-/

namespace ScheduleSearch.MonitorTable

variable {table after : MonitorTable} {call : MonitorCall} {transition : Transition}
  {thread : ThreadId} {lock : LockId}

/-- By the call `actor` gives up a lock that it owns, and the lock is free then. -/
def Frees (table : MonitorTable) (call : MonitorCall) (actor : ThreadId) (lock : LockId) : Prop :=
  (call = .leave actor lock ∨ ∃ timed, call = .wait actor lock timed) ∧
    table.Owns actor lock ∧ (table.next call).owner? lock = none

/-- A lock has one owner. -/
theorem same_of_owns {first second : ThreadId} (firstOwns : table.Owns first lock)
    (secondOwns : table.Owns second lock) : first.same second = true := by
  obtain ⟨owner, held, firstSame⟩ := firstOwns
  obtain ⟨other, alsoHeld, secondSame⟩ := secondOwns
  obtain rfl := Option.some.inj (held.symm.trans alsoHeld)
  exact (ThreadId.same_iff_lineage _ _).2 (firstSame.symm.trans secondSame)

private theorem owner?_release (before : MonitorTable) (lock : LockId) (monitor : Monitor) :
    (before.release lock monitor).2.owner? lock = none := by
  rw [owner?_eq, monitorOf_release, if_pos rfl]
  rfl

private theorem Sound.signalled_of_release (sound : table.Sound) {before : MonitorTable}
    {monitor : Monitor} {released : LockId}
    (signalled : monitor.signalled = (table.monitorOf released).signalled)
    (awaits : table.waitingFor? thread = some lock)
    (awaited : before.waitingFor? thread ≠ none)
    (gone : (before.release released monitor).2.waitingFor? thread = none) :
    released = lock ∧ 0 < (table.monitorOf released).pendingSignals := by
  rw [waitingFor?_release, signalled] at gone
  split at gone
  next woken =>
    have waiting := (sound.waitingFor_iff thread released).2 (queued_of_signalled woken)
    refine ⟨Option.some.inj (waiting.symm.trans awaits), Nat.pos_of_ne_zero fun nothing => ?_⟩
    obtain ⟨waiter, member, -⟩ := woken
    rw [Monitor.signalled, nothing] at member
    cases member
  next => exact absurd gone awaited

/-- A waiter that a call takes out of its signal queue was interrupted, or the owner gave the
lock up while a signal was pending. -/
theorem Sound.delivered_move (sound : table.Sound) (move : table.Move call transition after)
    (awaits : table.waitingFor? thread = some lock) (gone : after.waitingFor? thread = none) :
    (∃ target, target.lineage = thread.lineage ∧ call = .interrupt target) ∨
      ∃ actor, (call = .leave actor lock ∨ ∃ timed, call = .wait actor lock timed) ∧
        table.Owns actor lock ∧ after.owner? lock = none ∧
        0 < (table.monitorOf lock).pendingSignals := by
  have awaited : table.waitingFor? thread ≠ none := by
    rw [awaits]
    exact Option.some_ne_none lock
  cases move with
  | seize free => exact absurd gone awaited
  | reenter held same => exact absurd gone awaited
  | queue held different => exact absurd gone awaited
  | leaveOnce owns inner => exact absurd gone awaited
  | @leave actor released owns last =>
      obtain ⟨rfl, pending⟩ := sound.signalled_of_release rfl awaits awaited gone
      exact Or.inr ⟨actor, Or.inl rfl, owns, owner?_release _ _ _, pending⟩
  | @requeue actor released owns =>
      obtain ⟨rfl, pending⟩ := sound.signalled_of_release rfl awaits awaited gone
      exact Or.inr ⟨actor, Or.inr ⟨true, rfl⟩, owns, owner?_release _ _ _, pending⟩
  | @await actor released owns =>
      have stillAwaited : ({ table with waiting := table.waiting.insert actor released } :
          MonitorTable).waitingFor? thread ≠ none := by
        rw [waitingFor?_mk, Table.get?_insert]
        split
        · exact Option.some_ne_none released
        · exact awaited
      obtain ⟨rfl, pending⟩ :=
        sound.signalled_of_release (signalled_awaiting sound _ _) awaits stillAwaited gone
      exact Or.inr ⟨actor, Or.inr ⟨false, rfl⟩, owns, owner?_release _ _ _, pending⟩
  | notify owns => exact absurd gone awaited
  | notifyAll owns => exact absurd gone awaited
  | undisturbed notWaiting => exact absurd gone awaited
  | @interrupt target elsewhere depth waits saved =>
      refine Or.inl ⟨target, ?_, rfl⟩
      rw [waitingFor?_mk, Table.get?_erase] at gone
      split at gone
      next same => exact (ThreadId.compare_eq_iff.1 same).symm
      next => exact absurd gone awaited
  | unhindered notEntering => exact absurd gone awaited
  | hinder enters held => exact absurd gone awaited
  | grant enters free saved => exact absurd gone awaited

theorem Sound.delivered (sound : table.Sound) (awaits : table.waitingFor? thread = some lock)
    (gone : (table.next call).waitingFor? thread = none) :
    (∃ target, target.lineage = thread.lineage ∧ call = .interrupt target) ∨
      ∃ actor, table.Frees call actor lock ∧ 0 < (table.monitorOf lock).pendingSignals := by
  cases attempted : table.attempt call with
  | error fault =>
      rw [next_of_error attempted, awaits] at gone
      cases gone
  | ok result =>
      rw [next_of_ok attempted] at gone
      rcases sound.delivered_move (sound.move attempted) awaits gone with
        interrupted | ⟨actor, shape, owns, free, pending⟩
      · exact Or.inl interrupted
      · refine Or.inr ⟨actor, ⟨shape, owns, ?_⟩, pending⟩
        rw [next_of_ok attempted]
        exact free

private theorem pending_of_insert {monitor : Monitor} {changed : LockId}
    {entering waiting : Table ThreadId LockId}
    (kept : 0 < monitor.pendingSignals → 0 < (table.monitorOf changed).pendingSignals ∧
      monitor.owner = (table.monitorOf changed).owner)
    (pending : 0 < ((⟨table.monitors.insert changed monitor, entering, waiting⟩ :
      MonitorTable).monitorOf lock).pendingSignals) :
    0 < (table.monitorOf lock).pendingSignals ∧
      ((⟨table.monitors.insert changed monitor, entering, waiting⟩ : MonitorTable).monitorOf
        lock).owner = (table.monitorOf lock).owner := by
  rw [monitorOf_insert] at pending ⊢
  split at pending
  next here =>
    rw [if_pos here, here]
    exact kept pending
  next elsewhere =>
    rw [if_neg elsewhere]
    exact ⟨pending, rfl⟩

private theorem pending_of_release {before : MonitorTable} {monitor : Monitor} {released : LockId}
    (kept : before.monitors = table.monitors)
    (pending : 0 < ((before.release released monitor).2.monitorOf lock).pendingSignals) :
    0 < (table.monitorOf lock).pendingSignals ∧
      ((before.release released monitor).2.monitorOf lock).owner =
        (table.monitorOf lock).owner := by
  have same : before.monitorOf lock = table.monitorOf lock :=
    monitorOf_eq_of_monitor?_eq (by rw [monitor?, monitor?, kept])
  rw [monitorOf_release, same] at pending ⊢
  split at pending
  · cases pending
  next elsewhere =>
    rw [if_neg elsewhere]
    exact ⟨pending, rfl⟩

private theorem pending_of_signal {actor : ThreadId} {signalled : LockId} (signals : Nat)
    (owns : table.Owns actor signalled)
    (pending : 0 < ((table.record signalled
      { table.monitorOf signalled with pendingSignals := signals }).monitorOf
        lock).pendingSignals) :
    (0 < (table.monitorOf lock).pendingSignals ∧
        ((table.record signalled
          { table.monitorOf signalled with pendingSignals := signals }).monitorOf lock).owner =
          (table.monitorOf lock).owner) ∨
      (signalled = lock ∧ table.Owns actor lock ∧ (table.record signalled
        { table.monitorOf signalled with pendingSignals := signals }).Owns actor lock) := by
  by_cases here : lock = signalled
  · subst here
    refine Or.inr ⟨rfl, owns, ?_⟩
    rw [Owns, monitorOf_record, if_pos rfl]
    exact owns
  · rw [monitorOf_record, if_neg here] at pending ⊢
    exact Or.inl ⟨pending, rfl⟩

/-- If a signal is pending after a call, one was before and the lock has the same owner, or the
call is one by which the owner sent it. -/
theorem Sound.pending_move (sound : table.Sound) (move : table.Move call transition after)
    (pending : 0 < (after.monitorOf lock).pendingSignals) :
    (0 < (table.monitorOf lock).pendingSignals ∧
        (after.monitorOf lock).owner = (table.monitorOf lock).owner) ∨
      ∃ actor, table.Owns actor lock ∧ after.Owns actor lock ∧
        (call = .notify actor lock ∨ call = .notifyAll actor lock) := by
  have unsent : ∀ changed, (table.monitorOf changed).owner = none →
      ¬ 0 < (table.monitorOf changed).pendingSignals := fun changed free some =>
    Nat.ne_of_gt some ((sound.monitors changed).settled free)
  cases move with
  | @seize actor entered free =>
      exact Or.inl (pending_of_insert (fun some => absurd some (unsent entered free)) pending)
  | reenter held same => exact Or.inl (pending_of_insert (fun some => ⟨some, rfl⟩) pending)
  | queue held different => exact Or.inl (pending_of_insert (fun some => ⟨some, rfl⟩) pending)
  | leaveOnce owns inner => exact Or.inl (pending_of_insert (fun some => ⟨some, rfl⟩) pending)
  | leave owns last => exact Or.inl (pending_of_release rfl pending)
  | requeue owns => exact Or.inl (pending_of_release rfl pending)
  | await owns => exact Or.inl (pending_of_release rfl pending)
  | @notify actor signalled owns =>
      rcases pending_of_signal _ owns pending with before | ⟨rfl, owned, still⟩
      · exact Or.inl before
      · exact Or.inr ⟨actor, owned, still, Or.inl rfl⟩
  | @notifyAll actor signalled owns =>
      rcases pending_of_signal _ owns pending with before | ⟨rfl, owned, still⟩
      · exact Or.inl before
      · exact Or.inr ⟨actor, owned, still, Or.inr rfl⟩
  | undisturbed notWaiting => exact Or.inl ⟨pending, rfl⟩
  | interrupt waits saved =>
      refine Or.inl (pending_of_insert (fun some => ⟨?_, rfl⟩) pending)
      exact Nat.lt_of_lt_of_le some (Nat.min_le_left _ _)
  | unhindered notEntering => exact Or.inl ⟨pending, rfl⟩
  | hinder enters held => exact Or.inl ⟨pending, rfl⟩
  | @grant actor wanted depth enters free saved =>
      exact Or.inl (pending_of_insert (fun some => absurd some (unsent wanted free)) pending)

theorem Sound.pending_next (sound : table.Sound)
    (pending : 0 < ((table.next call).monitorOf lock).pendingSignals) :
    (0 < (table.monitorOf lock).pendingSignals ∧
        ((table.next call).monitorOf lock).owner = (table.monitorOf lock).owner) ∨
      ∃ actor, table.Owns actor lock ∧ (table.next call).Owns actor lock ∧
        (call = .notify actor lock ∨ call = .notifyAll actor lock) := by
  cases attempted : table.attempt call with
  | error fault =>
      rw [next_of_error attempted] at pending ⊢
      exact Or.inl ⟨pending, rfl⟩
  | ok result =>
      rw [next_of_ok attempted] at pending ⊢
      exact sound.pending_move (sound.move attempted) pending

/-- Granting a lock makes no signal pending. -/
theorem Sound.pending_resume (sound : table.Sound)
    (pending : 0 < ((table.resume thread).2.monitorOf lock).pendingSignals) :
    0 < (table.monitorOf lock).pendingSignals ∧
      ((table.resume thread).2.monitorOf lock).owner = (table.monitorOf lock).owner := by
  rcases sound.pending_move (sound.move_resume thread) pending with before | ⟨_, _, _, sent | sent⟩
  · exact before
  · cases sent
  · cases sent

end ScheduleSearch.MonitorTable
