import Mathlib.Data.ENat.Lattice
import ScheduleSearch.Proofs.Monitor.Calls
import ScheduleSearch.Proofs.Monitor.Views

/-!
# Delivery of signals

A *hold* of a lock lasts from the call that grants it to the call that frees it.  The signals
that were sent during a hold are delivered when it ends, each to the longest waiting thread that
is still there; those for which no waiter is left are lost.  What carries the argument is that
while the lock is held the pending signals are the smaller of the signals sent and the waiters
left, whatever interrupts and resumptions come in between.
-/

namespace ScheduleSearch

/-- How many signals on a lock a call sends if it is not refused: one, one for every waiter, or
none. -/
def MonitorCall.sends (call : MonitorCall) (lock : LockId) : ℕ∞ :=
  match call with
  | .notify _ target => if target = lock then 1 else 0
  | .notifyAll _ target => if target = lock then ⊤ else 0
  | _ => 0

/-- The place in the entry queue that a thread takes as it frees a lock by a call. -/
def MonitorCall.entryPlace (call : MonitorCall) (depth : Nat) : List Waiter :=
  match call with
  | .wait thread _ true => [⟨thread, depth⟩]
  | _ => []

/-- The place in the signal queue that a thread takes as it frees a lock by a call. -/
def MonitorCall.signalPlace (call : MonitorCall) (depth : Nat) : List Waiter :=
  match call with
  | .wait thread _ false => [⟨thread, depth⟩]
  | _ => []

namespace MonitorTable

variable {table after : MonitorTable} {call : MonitorCall} {transition : Transition} {lock : LockId}

/-- The lock is held, and it still is after each of the calls. -/
def HeldThroughout (table : MonitorTable) (lock : LockId) : List MonitorCall → Prop
  | [] => (table.monitorOf lock).isHeld = true
  | call :: rest =>
      (table.monitorOf lock).isHeld = true ∧ (table.next call).HeldThroughout lock rest

instance decidableHeldThroughout :
    (table : MonitorTable) → (lock : LockId) → (calls : List MonitorCall) →
      Decidable (table.HeldThroughout lock calls)
  | table, lock, [] => inferInstanceAs (Decidable ((table.monitorOf lock).isHeld = true))
  | table, lock, call :: rest =>
      have := decidableHeldThroughout (table.next call) lock rest
      inferInstanceAs (Decidable ((table.monitorOf lock).isHeld = true ∧
        (table.next call).HeldThroughout lock rest))

private theorem HeldThroughout.first {calls : List MonitorCall}
    (held : table.HeldThroughout lock calls) : (table.monitorOf lock).isHeld = true := by
  cases calls with
  | nil => exact held
  | cons call rest => exact held.1

private theorem HeldThroughout.last {calls : List MonitorCall}
    (held : table.HeldThroughout lock calls) :
    ((table.run calls).monitorOf lock).isHeld = true := by
  induction calls generalizing table with
  | nil => exact held
  | cons call rest inductionHypothesis => exact inductionHypothesis held.2

/-- How many signals on a lock a call sends. -/
def sent (table : MonitorTable) (lock : LockId) (call : MonitorCall) : ℕ∞ :=
  match table.attempt call with
  | .ok _ => call.sends lock
  | .error _ => 0

/-- How many signals on a lock are sent by some calls. -/
def signals (table : MonitorTable) (lock : LockId) : List MonitorCall → ℕ∞
  | [] => 0
  | call :: rest => table.sent lock call + (table.next call).signals lock rest

/-- What a call does to the signals of a lock that stays held: nothing but that waiters may
leave, or it sends one signal, or one to every waiter. -/
inductive Signalling (before after : Monitor) : ℕ∞ → Prop
  | none (fewer : after.signalQueue.length ≤ before.signalQueue.length)
      (clamped : after.pendingSignals = min before.pendingSignals after.signalQueue.length) :
      Signalling before after 0
  | one (same : after.signalQueue = before.signalQueue)
      (clamped : after.pendingSignals =
        min (before.pendingSignals + 1) before.signalQueue.length) :
      Signalling before after 1
  | all (same : after.signalQueue = before.signalQueue)
      (full : after.pendingSignals = before.signalQueue.length) :
      Signalling before after ⊤

private theorem Signalling.of_same {before after : Monitor}
    (few : before.pendingSignals ≤ before.signalQueue.length)
    (queue : after.signalQueue = before.signalQueue)
    (pending : after.pendingSignals = before.pendingSignals) : Signalling before after 0 := by
  refine .none ?_ ?_
  · rw [queue]
  · rw [pending, queue, Nat.min_eq_left few]

private theorem coe_min (first second : Nat) :
    ((min first second : Nat) : ℕ∞) = min (first : ℕ∞) (second : ℕ∞) :=
  Nat.mono_cast.map_min

/-- The law of a hold passes from one call to the next. -/
theorem Signalling.pending {before after : Monitor} {sent : ℕ∞}
    (signalling : Signalling before after sent) {signals : ℕ∞}
    (law : (before.pendingSignals : ℕ∞) = min signals before.signalQueue.length) :
    (after.pendingSignals : ℕ∞) = min (signals + sent) after.signalQueue.length := by
  cases signalling with
  | none fewer clamped =>
      have bound : (after.signalQueue.length : ℕ∞) ≤ before.signalQueue.length :=
        Nat.cast_le.2 fewer
      rw [clamped, add_zero, coe_min, law, min_assoc, min_eq_right bound]
  | one same clamped =>
      rw [clamped, same, coe_min, Nat.cast_add, law, Nat.cast_one, ← min_add_add_right, min_assoc]
      have longer : (before.signalQueue.length : ℕ∞) ≤ before.signalQueue.length + 1 := le_self_add
      rw [min_eq_right longer]
  | all same full =>
      rw [full, same, add_top, top_inf_eq]

private theorem withoutWaiter_length_le (queue : List Waiter) (thread : ThreadId) :
    (withoutWaiter queue thread).length ≤ queue.length :=
  (withoutWaiter_sublist queue thread).length_le

private theorem signalling_insert (few : (table.monitorOf lock).pendingSignals ≤
      (table.monitorOf lock).signalQueue.length) {target : LockId} {monitor : Monitor}
    (queue : monitor.signalQueue = (table.monitorOf target).signalQueue)
    (pending : monitor.pendingSignals = (table.monitorOf target).pendingSignals)
    (entering waiting : Table ThreadId LockId) :
    Signalling (table.monitorOf lock)
      ((⟨table.monitors.insert target monitor, entering, waiting⟩ : MonitorTable).monitorOf lock)
      0 := by
  rw [monitorOf_insert]
  split
  next here =>
    rw [here] at few ⊢
    exact .of_same few queue pending
  next => exact .of_same few rfl rfl

private theorem ne_of_held_release {target : LockId} {monitor : Monitor}
    (stillHeld : ((table.release target monitor).2.monitorOf lock).isHeld = true) :
    lock ≠ target := by
  rintro rfl
  rw [monitorOf_release, if_pos rfl] at stillHeld
  cases stillHeld

/-- A call after which the lock is still held does no more to its signals than to send some. -/
theorem Sound.signalling (sound : table.Sound)
    (stillHeld : ((table.next call).monitorOf lock).isHeld = true) :
    Signalling (table.monitorOf lock) ((table.next call).monitorOf lock)
      (table.sent lock call) := by
  have few := (sound.monitors lock).pending
  cases attempted : table.attempt call with
  | error fault =>
      rw [next_of_error attempted, sent, attempted]
      exact .of_same few rfl rfl
  | ok result =>
      obtain ⟨transition, after⟩ := result
      rw [next_of_ok attempted] at stillHeld ⊢
      rw [sent, attempted]
      dsimp only
      cases sound.move attempted with
      | seize free => exact signalling_insert few (by rfl) (by rfl) _ _
      | reenter held same => exact signalling_insert few (by rfl) (by rfl) _ _
      | queue held different => exact signalling_insert few (by rfl) (by rfl) _ _
      | leaveOnce owns inner => exact signalling_insert few (by rfl) (by rfl) _ _
      | leave owns last =>
          rw [monitorOf_release, if_neg (ne_of_held_release stillHeld)]
          exact .of_same few rfl rfl
      | requeue owns =>
          rw [monitorOf_release, if_neg (ne_of_held_release stillHeld)]
          exact .of_same few rfl rfl
      | await owns =>
          rw [monitorOf_release, if_neg (ne_of_held_release stillHeld)]
          exact .of_same few rfl rfl
      | @notify thread target owns =>
          rw [monitorOf_record]
          by_cases here : lock = target
          · have sends : (MonitorCall.notify thread target).sends lock = 1 := if_pos here.symm
            rw [sends, if_pos here, here]
            exact .one rfl rfl
          · have sends : (MonitorCall.notify thread target).sends lock = 0 :=
              if_neg (Ne.symm here)
            rw [sends, if_neg here]
            exact .of_same few rfl rfl
      | @notifyAll thread target owns =>
          rw [monitorOf_record]
          by_cases here : lock = target
          · have sends : (MonitorCall.notifyAll thread target).sends lock = ⊤ :=
              if_pos here.symm
            rw [sends, if_pos here, here]
            exact .all rfl rfl
          · have sends : (MonitorCall.notifyAll thread target).sends lock = 0 :=
              if_neg (Ne.symm here)
            rw [sends, if_neg here]
            exact .of_same few rfl rfl
      | undisturbed notWaiting => exact .of_same few rfl rfl
      | interrupt waits saved =>
          rw [monitorOf_insert]
          split
          next here =>
            rw [here]
            exact .none (withoutWaiter_length_le _ _) rfl
          next => exact .of_same few rfl rfl
      | unhindered notEntering => exact .of_same few rfl rfl
      | hinder enters held => exact .of_same few rfl rfl
      | grant enters free saved => exact signalling_insert few (by rfl) (by rfl) _ _

/-- While a lock stays held its pending signals are the smaller of the signals that were sent
and the waiters that are left. -/
theorem Sound.pending_run {calls : List MonitorCall} {signals : ℕ∞} (sound : table.Sound)
    (lawful : table.Lawful calls) (held : table.HeldThroughout lock calls)
    (law : ((table.monitorOf lock).pendingSignals : ℕ∞) =
      min signals (table.monitorOf lock).signalQueue.length) :
    (((table.run calls).monitorOf lock).pendingSignals : ℕ∞) =
      min (signals + table.signals lock calls)
        ((table.run calls).monitorOf lock).signalQueue.length := by
  induction calls generalizing table signals with
  | nil =>
      rw [MonitorTable.signals, add_zero]
      exact law
  | cons call rest inductionHypothesis =>
      have signalling : Signalling _ _ (table.sent lock call) := sound.signalling held.2.first
      rw [MonitorTable.signals, ← add_assoc]
      exact inductionHypothesis (sound.next lawful.1) lawful.2 held.2 (signalling.pending law)

/-! ## The end of a hold -/

/-- The call that frees a lock, and what it does with the waiters: `count` of them, the longest
waiting ones, move with their depths to the back of the entry queue and the others stay.  The
thread that frees the lock by waiting takes its own place before them in the entry queue or
behind the others in the signal queue. -/
structure Delivery (before after : MonitorTable) (lock : LockId) (releaser : ThreadId)
    (call : MonitorCall) (count : Nat) : Prop where
  owns : before.Owns releaser lock
  notWaiting : ¬ Queued (before.monitorOf lock).signalQueue releaser
  frees : call = .leave releaser lock ∨ ∃ timed, call = .wait releaser lock timed
  entryQueue : (after.monitorOf lock).entryQueue =
    (before.monitorOf lock).entryQueue ++ call.entryPlace (before.monitorOf lock).depth ++
      (before.monitorOf lock).signalQueue.take count
  signalQueue : (after.monitorOf lock).signalQueue =
    (before.monitorOf lock).signalQueue.drop count ++
      call.signalPlace (before.monitorOf lock).depth
  spent : (after.monitorOf lock).pendingSignals = 0
  reports : before.attempt call =
    .ok (⟨(call.signalPlace (before.monitorOf lock).depth).map (·.thread),
      (after.monitorOf lock).entryQueue.map (·.thread)⟩, after)
  elsewhere : ∀ other, other ≠ lock → after.monitorOf other = before.monitorOf other

private theorem isHeld_insert (held : (table.monitorOf lock).isHeld = true) {target : LockId}
    {monitor : Monitor} (kept : lock = target → monitor.isHeld = true)
    (entering waiting : Table ThreadId LockId) :
    ((⟨table.monitors.insert target monitor, entering, waiting⟩ : MonitorTable).monitorOf
      lock).isHeld = true := by
  rw [monitorOf_insert]
  split
  next here => exact kept here
  next => exact held

private theorem eq_of_freed_release (held : (table.monitorOf lock).isHeld = true) {target : LockId}
    {monitor : Monitor}
    (freed : ((table.release target monitor).2.monitorOf lock).isHeld = false) :
    lock = target := by
  by_contra elsewhere
  rw [monitorOf_release, if_neg elsewhere, held] at freed
  cases freed

/-- A call that frees a lock delivers as many signals as are pending. -/
theorem Sound.delivery (sound : table.Sound) (held : (table.monitorOf lock).isHeld = true)
    (freed : ((table.next call).monitorOf lock).isHeld = false) :
    ∃ releaser, Delivery table (table.next call) lock releaser call
      (table.monitorOf lock).pendingSignals := by
  have few := (sound.monitors lock).pending
  cases attempted : table.attempt call with
  | error fault =>
      rw [next_of_error attempted, held] at freed
      cases freed
  | ok result =>
      obtain ⟨transition, after⟩ := result
      rw [next_of_ok attempted] at freed ⊢
      have stillHeld : (after.monitorOf lock).isHeld = true → False := by
        intro still
        rw [still] at freed
        cases freed
      cases sound.move attempted with
      | seize free => exact False.elim (stillHeld (isHeld_insert held (fun _ => rfl) _ _))
      | reenter owner same =>
          have kept := Monitor.isHeld_iff.2 ⟨_, owner⟩
          exact False.elim (stillHeld (isHeld_insert held (by exact fun _ => kept) _ _))
      | queue owner different =>
          have kept := Monitor.isHeld_iff.2 ⟨_, owner⟩
          exact False.elim (stillHeld (isHeld_insert held (by exact fun _ => kept) _ _))
      | leaveOnce owns inner =>
          obtain ⟨owner, owned, -⟩ := owns
          have kept := Monitor.isHeld_iff.2 ⟨owner, owned⟩
          exact False.elim (stillHeld (isHeld_insert held (by exact fun _ => kept) _ _))
      | leave owns last =>
          obtain rfl := eq_of_freed_release held freed
          have now := monitorOf_release table lock lock
            { table.monitorOf lock with depth := (table.monitorOf lock).depth - 1 }
          rw [if_pos rfl] at now
          refine ⟨_, owns, ((sound.monitors lock).owner_not_queued owns).2, Or.inl rfl, ?_, ?_, ?_,
            ?_, ?_⟩
          · simp only [now, MonitorCall.entryPlace, List.append_nil]
            rfl
          · simp only [now, MonitorCall.signalPlace, List.append_nil]
            rfl
          · rw [now]
            rfl
          · rw [attempted, now]
            rfl
          · intro other different
            rw [monitorOf_release, if_neg different]
      | requeue owns =>
          obtain rfl := eq_of_freed_release held freed
          refine ⟨_, owns, ((sound.monitors lock).owner_not_queued owns).2, Or.inr ⟨true, rfl⟩, ?_,
            ?_, ?_, ?_, ?_⟩
          · rw [monitorOf_release, if_pos rfl]
            rfl
          · simp only [monitorOf_release, if_pos, MonitorCall.signalPlace, List.append_nil]
            rfl
          · rw [monitorOf_release, if_pos rfl]
            rfl
          · rw [attempted, monitorOf_release, if_pos rfl]
            rfl
          · intro other different
            rw [monitorOf_release, if_neg different]
            rfl
      | @await thread _ owns =>
          obtain rfl := eq_of_freed_release held freed
          refine ⟨_, owns, ((sound.monitors lock).owner_not_queued owns).2, Or.inr ⟨false, rfl⟩, ?_,
            ?_, ?_, ?_, ?_⟩
          · simp only [monitorOf_release, if_pos, MonitorCall.entryPlace, List.append_nil]
            exact congrArg ((table.monitorOf lock).entryQueue ++ ·)
              (signalled_awaiting sound thread lock)
          · rw [monitorOf_release, if_pos rfl]
            exact List.drop_append_of_le_length few
          · rw [monitorOf_release, if_pos rfl]
            rfl
          · rw [attempted, monitorOf_release, if_pos rfl]
            rfl
          · intro other different
            rw [monitorOf_release, if_neg different]
            rfl
      | notify owns =>
          obtain ⟨owner, owned, -⟩ := owns
          have kept := Monitor.isHeld_iff.2 ⟨owner, owned⟩
          exact False.elim (stillHeld (isHeld_insert held (by exact fun _ => kept) _ _))
      | notifyAll owns =>
          obtain ⟨owner, owned, -⟩ := owns
          have kept := Monitor.isHeld_iff.2 ⟨owner, owned⟩
          exact False.elim (stillHeld (isHeld_insert held (by exact fun _ => kept) _ _))
      | undisturbed notWaiting => exact False.elim (stillHeld held)
      | interrupt waits saved =>
          refine False.elim (stillHeld (isHeld_insert held ?_ _ _))
          rintro rfl
          exact held
      | unhindered notEntering => exact False.elim (stillHeld held)
      | hinder enters owner => exact False.elim (stillHeld held)
      | grant enters free saved =>
          exact False.elim (stillHeld (isHeld_insert held (fun _ => rfl) _ _))

private theorem Sound.sent_of_free (sound : table.Sound)
    (free : (table.monitorOf lock).owner = none)
    (call : MonitorCall) : table.sent lock call = 0 := by
  have foreign : ∀ thread, ¬ table.Owns thread lock := by
    rintro thread ⟨owner, owned, -⟩
    rw [free] at owned
    cases owned
  cases attempted : table.attempt call with
  | error fault => rw [sent, attempted]
  | ok result =>
      obtain ⟨transition, after⟩ := result
      rw [sent, attempted]
      cases sound.move attempted with
      | @notify thread target owns =>
          refine if_neg ?_
          rintro rfl
          exact foreign thread owns
      | @notifyAll thread target owns =>
          refine if_neg ?_
          rintro rfl
          exact foreign thread owns
      | _ => rfl

/-- Exact delivery.  In a run of permitted calls, a hold of a lock ends with a call of its owner,
which delivers as many of the signals sent during the hold as there are waiters left: so many
waiters, from the front of the signal queue, move to the back of the entry queue, the others
stay as they are, and all of the entry queue is told that the lock is free. -/
theorem hold_delivers (before : List MonitorCall) (grant : MonitorCall)
    (during : List MonitorCall) (release : MonitorCall) (lock : LockId)
    (lawful : empty.Lawful (before ++ grant :: during ++ [release]))
    (free : ((empty.run before).monitorOf lock).isHeld = false)
    (held : ((empty.run before).next grant).HeldThroughout lock during)
    (freed : ((empty.run (before ++ grant :: during ++ [release])).monitorOf lock).isHeld =
      false) :
    ∃ (releaser : ThreadId) (count : Nat),
      (count : ℕ∞) = min (((empty.run before).next grant).signals lock during)
        ((empty.run (before ++ grant :: during)).monitorOf lock).signalQueue.length ∧
      Delivery (empty.run (before ++ grant :: during))
        (empty.run (before ++ grant :: during ++ [release])) lock releaser release count := by
  rw [lawful_append, lawful_append] at lawful
  obtain ⟨⟨lawfulBefore, grantPermitted, lawfulDuring⟩, releasePermitted, -⟩ := lawful
  have soundBefore := Sound.of_empty.run lawfulBefore
  have soundStart := soundBefore.next grantPermitted
  have soundLast := soundStart.run lawfulDuring
  have whole : empty.run (before ++ grant :: during) =
      ((empty.run before).next grant).run during := run_append _ _ _
  have unowned : ((empty.run before).monitorOf lock).owner = none :=
    Option.not_isSome_iff_eq_none.1 (Bool.eq_false_iff.1 free)
  have unsent : (((empty.run before).monitorOf lock).pendingSignals : ℕ∞) =
      min 0 (((empty.run before).monitorOf lock).signalQueue.length : ℕ∞) := by
    rw [(soundBefore.monitors lock).settled unowned, Nat.cast_zero, min_eq_left zero_le]
  have signalling : Signalling _ _ ((empty.run before).sent lock grant) :=
    soundBefore.signalling held.first
  have atStart := signalling.pending unsent
  rw [soundBefore.sent_of_free unowned, add_zero] at atStart
  have atEnd := soundStart.pending_run lawfulDuring held atStart
  rw [zero_add, ← whole] at atEnd
  have stillHeld := held.last
  have ending : empty.run (before ++ grant :: during ++ [release]) =
      (empty.run (before ++ grant :: during)).next release := run_append _ _ _
  rw [← whole] at stillHeld soundLast
  rw [ending] at freed ⊢
  obtain ⟨releaser, delivery⟩ := soundLast.delivery stillHeld freed
  exact ⟨releaser, _, atEnd, delivery⟩

/-- Three children enter a lock, the second one twice, and wait for a signal on it. -/
def threeWaiters : List MonitorCall :=
  [.enter (.child .root 0) ⟨7⟩, .wait (.child .root 0) ⟨7⟩ false,
    .enter (.child .root 1) ⟨7⟩, .enter (.child .root 1) ⟨7⟩, .wait (.child .root 1) ⟨7⟩ false,
    .enter (.child .root 2) ⟨7⟩, .wait (.child .root 2) ⟨7⟩ false]

/-- The first waiter is interrupted before the only signal is delivered, which goes to the
second, at the depth it had, while the third goes on waiting. -/
theorem delivery_after_interrupt :
    ∃ (releaser : ThreadId) (count : Nat) (last freed : MonitorTable),
      last = empty.run (threeWaiters ++
        [.enter .root ⟨7⟩, .notify .root ⟨7⟩, .interrupt (.child .root 0)]) ∧
      freed = last.next (.leave .root ⟨7⟩) ∧
      Delivery last freed ⟨7⟩ releaser (.leave .root ⟨7⟩) count ∧
      (freed.monitorOf ⟨7⟩).entryQueue = [⟨.child .root 0, 1⟩, ⟨.child .root 1, 2⟩] ∧
      (freed.monitorOf ⟨7⟩).signalQueue = [⟨.child .root 2, 1⟩] := by
  obtain ⟨releaser, count, -, delivery⟩ :=
    hold_delivers threeWaiters (.enter .root ⟨7⟩)
      [.notify .root ⟨7⟩, .interrupt (.child .root 0)] (.leave .root ⟨7⟩) ⟨7⟩
      (by decide +kernel) (by decide +kernel) (by decide +kernel) (by decide +kernel)
  exact ⟨releaser, count, _, _, rfl, rfl, delivery, by decide +kernel, by decide +kernel⟩

end MonitorTable

end ScheduleSearch
