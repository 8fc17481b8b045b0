import Mathlib.Order.WellFoundedSet
import ScheduleSearch.Proofs.Monitor.Ownership
import ScheduleSearch.Proofs.Scheduler.StuckThreads

/-!
# Locks that are entered in an order

Suppose there is an order on the locks, and every thread enters a lock only if it owns it or if
the lock is greater than all that it owns, gives up only the greatest of them for a while, never
waits for anything but a lock, and owns none when it exits.  Then what a thread wants is always
greater than what it owns.  In a stuck state the owner of a wanted lock would want a greater
one, which is wanted in its turn, but only finitely many locks are wanted at a time.
-/

namespace ScheduleSearch

variable {below : LockId → LockId → Prop}

/-- The order of the locks by their numbers. -/
def LockId.Below (lower upper : LockId) : Prop :=
  lower.number < upper.number

instance : DecidableRel LockId.Below := fun lower upper =>
  inferInstanceAs (Decidable (lower.number < upper.number))

instance : IsStrictTotalOrder LockId LockId.Below where
  irrefl lock := Nat.lt_irrefl lock.number
  trans _ _ _ := Nat.lt_trans
  trichotomous := by
    rintro ⟨lower⟩ ⟨upper⟩ notBelow notAbove
    exact congrArg _ (Nat.le_antisymm (Nat.not_lt.1 notAbove) (Nat.not_lt.1 notBelow))

/-- What an event of a thread that owns the locks in `held` must observe.  Nothing is asked of
the other events, not even of the order in which locks are left. -/
def Event.Ordered (below : LockId → LockId → Prop) (held : List LockId) : Event → Prop
  | .act (.enter lock) => lock ∈ held ∨ ∀ owned ∈ held, below owned lock
  | .act (.wait lock timed) => timed = true ∧ ∀ owned ∈ held, owned = lock ∨ below owned lock
  | .act (.join _ timed) => timed = true
  | .act .park => False
  | .exit => held = []
  | _ => True

instance [DecidableRel below] (held : List LockId) :
    (event : Event) → Decidable (event.Ordered below held)
  | .announce => inferInstanceAs (Decidable True)
  | .bind _ => inferInstanceAs (Decidable True)
  | .exit => inferInstanceAs (Decidable (held = []))
  | .choose => inferInstanceAs (Decidable True)
  | .readInterrupt _ => inferInstanceAs (Decidable True)
  | .act (.yield _) => inferInstanceAs (Decidable True)
  | .act (.enter _) => inferInstanceAs (Decidable (_ ∨ _))
  | .act (.leave _) => inferInstanceAs (Decidable True)
  | .act (.wait _ _) => inferInstanceAs (Decidable (_ ∧ _))
  | .act (.notify _) => inferInstanceAs (Decidable True)
  | .act (.notifyAll _) => inferInstanceAs (Decidable True)
  | .act .park => inferInstanceAs (Decidable False)
  | .act (.unpark _) => inferInstanceAs (Decidable True)
  | .act (.join _ timed) => inferInstanceAs (Decidable (timed = true))
  | .act (.interrupt _) => inferInstanceAs (Decidable True)

private theorem Event.Ordered.reason?_eq_none {event : Event} {held : List LockId}
    (ordered : event.Ordered below held) : event.reason? = none := by
  match event with
  | .announce => rfl
  | .bind host => rfl
  | .exit => rfl
  | .choose => rfl
  | .readInterrupt clear => rfl
  | .act (.yield site) => rfl
  | .act (.enter lock) => rfl
  | .act (.leave lock) => rfl
  | .act (.wait lock true) => rfl
  | .act (.wait lock false) => cases ordered.1
  | .act (.notify lock) => rfl
  | .act (.notifyAll lock) => rfl
  | .act .park => exact False.elim ordered
  | .act (.unpark target) => rfl
  | .act (.join joinee true) => rfl
  | .act (.join joinee false) => cases ordered
  | .act (.interrupt target) => rfl

namespace MonitorTable

variable {table : MonitorTable} {call : MonitorCall}

/-- Every lock that a thread wants is greater than all that it owns. -/
def Ascending (below : LockId → LockId → Prop) (table : MonitorTable) : Prop :=
  ∀ thread wanted owned, table.entering? thread = some wanted → table.Owns thread owned →
    below owned wanted

/-- The call makes its thread want a lock: the lock is held, or it is given up for a while. -/
def MakesWant (table : MonitorTable) (call : MonitorCall) (actor : ThreadId) (wanted : LockId) :
    Prop :=
  (call = .enter actor wanted ∧ ¬ table.Owns actor wanted) ∨ call = .wait actor wanted true

private theorem Ascending.next (ascending : table.Ascending below) (sound : table.Sound)
    (permitted : table.Permitted call)
    (unawaited : ∀ thread, table.waitingFor? thread = none)
    (climbs : ∀ actor wanted owned, table.MakesWant call actor wanted →
      table.Owns actor owned → owned = wanted ∨ below owned wanted) :
    (table.next call).Ascending below := by
  intro thread wanted owned enters owns
  rcases sound.owns_next permitted owns with ownedBefore | ⟨nothing, -⟩
  · -- what the thread wants is new only if it does not own it, so it is not among the owned ones
    rcases sound.entering?_next enters with earlier | awaited | ⟨foreign, actor, same, newly⟩
    · exact ascending thread wanted owned earlier ownedBefore
    · rw [unawaited thread] at awaited
      cases awaited
    · rcases climbs actor wanted owned newly ((owns_congr same).2 ownedBefore) with rfl | less
      · exact absurd owns foreign
      · exact less
  · rw [nothing] at enters
    cases enters

private theorem finite_wanted (table : MonitorTable) :
    {lock | ∃ thread, table.entering? thread = some lock}.Finite := by
  refine (List.finite_toSet table.entering.values).subset ?_
  rintro lock ⟨thread, enters⟩
  obtain ⟨entry, inside, -, rfl⟩ := Table.mem_of_get? enters
  exact List.mem_map_of_mem inside

end MonitorTable

private theorem Event.Ordered.climbs {event : Event} {table : MonitorTable} {actor : ThreadId}
    {call : MonitorCall} (ordered : event.Ordered below (table.heldBy actor))
    (called : event.callOf? actor = some call) (wanting : ThreadId) (wanted owned : LockId)
    (makes : table.MakesWant call wanting wanted) (owns : table.Owns wanting owned) :
    owned = wanted ∨ below owned wanted := by
  rcases makes with ⟨rfl, foreign⟩ | rfl
  · match event with
    | .act (.enter lock) =>
        cases called
        rcases ordered with again | greater
        · exact absurd (MonitorTable.mem_heldBy.1 again) foreign
        · exact Or.inr (greater owned (MonitorTable.mem_heldBy.2 owns))
  · match event with
    | .act (.wait lock timed) =>
        cases called
        exact ordered.2 owned (MonitorTable.mem_heldBy.2 owns)

private theorem Event.eq_of_callOf?_enter {event : Event} {actor entering : ThreadId}
    {lock : LockId}
    (called : event.callOf? actor = some (.enter entering lock)) : entering = actor := by
  match event with
  | .act (.enter entered) =>
      cases called
      rfl

namespace Scheduler

variable {σ : Type} {state : Scheduler σ} {actor : ThreadId}

/-- Nobody waits for anything but a lock, every owner of a lock is live, and what a thread wants
is greater than what it owns. -/
structure Orderly (below : LockId → LockId → Prop) (state : Scheduler σ) : Prop where
  reasons : ∀ thread reason, state.threads.reason? thread = some reason →
    ∃ lock, reason = .lock lock
  owners : ∀ thread lock, state.monitors.Owns thread lock → state.isLive thread = true
  ascending : state.monitors.Ascending below

private theorem orderly_begun (below : LockId → LockId → Prop) (source : σ) (maxDecisions : Nat)
    (host : Host) : Orderly below ((fresh source maxDecisions).begin host).2 where
  reasons := by
    intro thread reason waits
    rw [RunStates.reason?_eq_some_iff, state?_begun] at waits
    split at waits <;> cases waits
  owners := by
    rintro thread lock ⟨owner, held, -⟩
    cases held
  ascending := by
    intro thread wanted owned enters
    cases enters

private theorem Orderly.unawaited (orderly : Orderly below state) (coherent : state.Coherent)
    (thread : ThreadId) : state.monitors.waitingFor? thread = none := by
  cases awaits : state.monitors.waitingFor? thread with
  | none => rfl
  | some lock =>
      have blocked := ((coherent.fits thread).of_waitingFor awaits).2
      obtain ⟨wanted, impossible⟩ :=
        orderly.reasons thread _ (RunStates.reason?_eq_some_iff.2 blocked)
      cases impossible

private theorem Coherent.isLive_of_entering (coherent : state.Coherent) {thread : ThreadId}
    {lock : LockId} (enters : state.monitors.entering? thread = some lock) :
    state.isLive thread = true := by
  obtain ⟨-, runnable | ⟨blocked, -⟩⟩ := (coherent.fits thread).of_entering enters
  · exact isLive_iff.2 ⟨_, runnable⟩
  · exact isLive_iff.2 ⟨_, blocked⟩

/-! ## No orderly state is stuck -/

/-- In a stuck state every live thread wants a lock that another thread holds. -/
theorem Orderly.wants_of_stuck (orderly : Orderly below state) (coherent : state.Coherent)
    (stuck : state.Stuck) {thread : ThreadId} (live : state.isLive thread = true) :
    ∃ lock, state.monitors.entering? thread = some lock ∧ state.HeldByOther lock thread := by
  obtain ⟨run, found⟩ := isLive_iff.1 live
  cases run with
  | running => exact absurd found (stuck.2 thread).1
  | runnable => exact absurd found (stuck.2 thread).2
  | blocked reason =>
      cases reason with
      | none => exact False.elim (coherent.fits_of found)
      | some reason =>
          obtain ⟨lock, rfl⟩ :=
            orderly.reasons thread reason (RunStates.reason?_eq_some_iff.2 found)
          have fits := coherent.fits_of found
          exact ⟨lock, fits.1, fits.2.2.2⟩

private theorem Orderly.not_stuck [IsStrictOrder LockId below] (orderly : Orderly below state)
    (coherent : state.Coherent) : ¬ state.Stuck := by
  intro stuck
  obtain ⟨thread, live⟩ := stuck.1
  obtain ⟨lock, enters, -⟩ := orderly.wants_of_stuck coherent stuck live
  -- Induction on the wanted locks, the greatest first: the owner of a wanted lock is stuck too,
  -- so it wants a lock, which is greater and wanted in its turn.
  have founded := state.monitors.finite_wanted.wellFoundedOn (r := Function.swap below)
  refine founded.induction ⟨thread, enters⟩ (P := fun _ => False) ?_
  rintro wanted ⟨waiter, enters⟩ noGreater
  obtain ⟨-, runnable | ⟨-, owner, held, -⟩⟩ := (coherent.fits waiter).of_entering enters
  · exact (stuck.2 waiter).2 runnable
  · have owns : state.monitors.Owns owner wanted := ⟨owner, held, rfl⟩
    obtain ⟨greater, wants, -⟩ :=
      orderly.wants_of_stuck coherent stuck (orderly.owners owner wanted owns)
    exact noGreater greater ⟨owner, wants⟩ (orderly.ascending owner greater wanted wants owns)

private theorem Coherent.permitted (coherent : state.Coherent)
    (runs : state.threads.state? actor = some .running) {event : Event} {call : MonitorCall}
    (called : event.callOf? actor = some call) : state.monitors.Permitted call := by
  have fits := coherent.fits_of runs
  have unqueued := coherent.monitors.unqueued fits.1 fits.2.1
  match event with
  | .act (.enter lock) =>
      cases called
      exact unqueued
  | .act (.leave lock) =>
      cases called
      trivial
  | .act (.wait lock timed) =>
      cases called
      exact unqueued
  | .act (.notify lock) =>
      cases called
      trivial
  | .act (.notifyAll lock) =>
      cases called
      trivial
  | .act (.interrupt target) =>
      cases called
      trivial

private theorem isLive_noted {thread : ThreadId} {event : Event} (live : state.isLive thread = true)
    (stays : event = .exit → thread.lineage ≠ actor.lineage) :
    (state.noted actor event).isLive thread = true := by
  match event with
  | .announce => exact (isLive_announce ..).2 (Or.inr live)
  | .bind host => exact live
  | .exit => exact (isLive_forget ..).2 ⟨stays rfl, live⟩
  | .choose => exact live
  | .readInterrupt clear => exact live
  | .act action => cases action <;> exact live

private theorem Orderly.owners_prepare (orderly : Orderly below state) (coherent : state.Coherent)
    (runs : state.threads.state? actor = some .running) {event : Event}
    (ordered : event.Ordered below (state.monitors.heldBy actor)) (thread : ThreadId)
    (lock : LockId) (owns : (state.prepare actor event).state.monitors.Owns thread lock) :
    (state.prepare actor event).state.isLive thread = true := by
  rw [coherent.monitors_prepare] at owns
  rw [(frame_prepare state actor event).live]
  apply isLive_noted
  · cases called : event.callOf? actor with
    | none =>
        rw [called] at owns
        exact orderly.owners thread lock owns
    | some call =>
        rw [called] at owns
        rcases coherent.monitors.owns_next (coherent.permitted runs called) owns with
          earlier | ⟨-, wanted | ⟨entering, same, rfl⟩⟩
        · exact orderly.owners thread lock earlier
        · exact coherent.isLive_of_entering wanted
        · obtain rfl := Event.eq_of_callOf?_enter called
          exact (isLive_congr state same.symm).trans (isLive_iff.2 ⟨_, runs⟩)
  · -- a thread that exits owns nothing
    rintro rfl same
    have owned : state.monitors.Owns thread lock := owns
    have member := MonitorTable.mem_heldBy.2 ((MonitorTable.owns_congr same).1 owned)
    have nothing : state.monitors.heldBy actor = [] := ordered
    rw [nothing] at member
    cases member

private theorem Orderly.prepare (orderly : Orderly below state) (coherent : state.Coherent)
    (runs : state.threads.state? actor = some .running) {event : Event}
    (ordered : event.Ordered below (state.monitors.heldBy actor)) :
    Orderly below (state.prepare actor event).state where
  reasons := by
    intro thread reason waits
    rcases reasons_prepare state actor event thread reason waits with earlier | onLock | ⟨-, own⟩
    · exact orderly.reasons thread reason earlier
    · exact onLock
    · rw [ordered.reason?_eq_none] at own
      cases own
  owners := orderly.owners_prepare coherent runs ordered
  ascending := by
    rw [coherent.monitors_prepare]
    cases called : event.callOf? actor with
    | none => exact orderly.ascending
    | some call =>
        exact orderly.ascending.next coherent.monitors (coherent.permitted runs called)
          (orderly.unawaited coherent) (ordered.climbs called)

private theorem Orderly.promote (orderly : Orderly below state) (coherent : state.Coherent)
    (nobody : ∀ thread, state.threads.state? thread ≠ some .running) (next : ThreadId) :
    Orderly below (state.promote next).2 where
  reasons := by
    have new : RunStates.NewReasons (fun _ reason => ∃ lock, reason = .lock lock)
        state.threads (state.promote next).2.threads :=
      reasons_promote (fun _ lock => ⟨lock, rfl⟩) nobody next
    intro thread reason waits
    exact (new thread reason waits).elim (orderly.reasons thread reason) id
  owners := by
    intro thread lock owns
    rw [(frame_promote nobody next).live]
    rw [monitors_promote nobody next] at owns
    have permitted : state.monitors.Permitted (.resume next) := trivial
    rcases coherent.monitors.owns_next permitted owns with earlier | ⟨-, wanted | ⟨_, -, entered⟩⟩
    · exact orderly.owners thread lock earlier
    · exact coherent.isLive_of_entering wanted
    · cases entered
  ascending := by
    rw [monitors_promote nobody next]
    have permitted : state.monitors.Permitted (.resume next) := trivial
    refine orderly.ascending.next coherent.monitors permitted (orderly.unawaited coherent) ?_
    rintro _ _ _ (⟨entered, -⟩ | waited)
    · cases entered
    · cases waited

variable [DecisionSource σ] {after : Scheduler σ}

private theorem Orderly.pick (orderly : Orderly below state) (coherent : state.Coherent)
    (nobody : ∀ thread, state.threads.state? thread ≠ some .running) (label : String) :
    Orderly below (state.pick label).2 := by
  refine Coherent.pick_preserves (P := Orderly below) ?_ ?_ label _ coherent nobody orderly
  · intro asked decisions source kept
    exact ⟨kept.reasons, kept.owners, kept.ascending⟩
  · intro asked next askedCoherent askedNobody kept
    exact kept.promote askedCoherent askedNobody next

/-- An event that observes the order keeps a state orderly. -/
theorem Orderly.step (orderly : Orderly below state) (coherent : state.Coherent)
    (runs : state.threads.state? actor = some .running) {event : Event}
    (ordered : event.Ordered below (state.monitors.heldBy actor)) :
    Orderly below (state.step actor event).2 := by
  refine coherent.step_preserves runs (orderly.prepare coherent runs ordered) ?_
  intro ready label readyCoherent nobody kept
  exact kept.pick readyCoherent nobody label

/-- Every event of a history observes the order when it is reported. -/
def Observes (below : LockId → LockId → Prop) : Scheduler σ → History → Prop
  | _, [] => True
  | first, (actor, event) :: rest =>
      event.Ordered below (first.monitors.heldBy actor) ∧
        Observes below (first.step actor event).2 rest

instance decidableObserves [DecidableRel below] :
    (first : Scheduler σ) → (history : History) → Decidable (Observes below first history)
  | _, [] => inferInstanceAs (Decidable True)
  | first, (actor, event) :: rest =>
      have := decidableObserves (first.step actor event).2 rest
      inferInstanceAs (Decidable (_ ∧ Observes below (first.step actor event).2 rest))

private theorem Steps.observes_append {first : Scheduler σ} {history : History}
    (steps : Steps first history state) (late : History) :
    Observes below first (history ++ late) ↔
      Observes below first history ∧ Observes below state late := by
  induction steps generalizing late with
  | refl => simp [Observes]
  | @report history state after actor event reply steps runs stepped inductionHypothesis =>
      rw [List.append_assoc, List.singleton_append, inductionHypothesis, inductionHypothesis,
        and_assoc]
      simp [Observes, stepped]

private theorem Driven.orderly {source : σ} {maxDecisions : Nat} {host : Host} {history : History}
    (driven : Driven source maxDecisions host history state)
    (observes : Observes below ((fresh source maxDecisions).begin host).2 history) :
    Orderly below state := by
  refine driven.preserves
    (P := fun history state =>
      Observes below ((fresh source maxDecisions).begin host).2 history → Orderly below state)
    (fun _ => orderly_begun below source maxDecisions host) ?_ observes
  intro history state actor event driven runs orderly observes
  obtain ⟨earlier, ordered, -⟩ := (Steps.observes_append driven _).1 observes
  exact (orderly earlier).step driven.coherent (RunStates.isRunning_iff.1 runs) ordered

/-- Locks that are entered in an order never deadlock.  If every event of a run observes the
order, no event of it leaves all live threads waiting, and none fails with a deadlock or with
dangling threads, unless this is what the source answered when the event asked it for a choice. -/
theorem driven_ordered_locks (source : σ) (maxDecisions : Nat) (host : Host)
    (below : LockId → LockId → Prop) [IsStrictOrder LockId below] {history : History}
    (driven : Driven source maxDecisions host history state) (actor : ThreadId) (event : Event)
    {outcome : Outcome Reply}
    (observes : Observes below ((fresh source maxDecisions).begin host).2
      (history ++ [(actor, event)]))
    (runs : state.threads.isRunning actor = true)
    (stepped : state.step actor event = (outcome, after)) :
    ¬ after.Stuck ∧
      (∀ fault, outcome = .error (.fault fault) → fault.isStall = true →
        Declined (state.roundsOf actor event) fault) ∧
      (NeverStalls σ → ∀ fault, outcome = .error (.fault fault) → fault.isStall = false) := by
  have coherent := driven.coherent
  have running := RunStates.isRunning_iff.1 runs
  obtain ⟨earlier, ordered, -⟩ := (Steps.observes_append driven _).1 observes
  have orderly := (driven.orderly earlier).step coherent running ordered
  have afterCoherent := (coherent.reported running event).1
  have verdict := coherent.verdict running event
  rw [stepped] at orderly afterCoherent verdict
  have free := orderly.not_stuck afterCoherent
  have declined : ∀ fault, outcome = .error (.fault fault) → fault.isStall = true →
      Declined (state.roundsOf actor event) fault := by
    intro fault failed stall
    by_contra own
    exact free (verdict.reportsStall_iff.1 ⟨fault, failed, stall, own⟩)
  refine ⟨free, declined, ?_⟩
  intro honest fault failed
  rw [← Bool.not_eq_true]
  exact fun stall => honest.not_declined stall (declined fault failed stall)

/-- The root and its child enter the same lock, and the root enters a second one, on which it
waits for a while as the child waits for the first. -/
def crossingThreads : History :=
  [(.root, .announce), (.root, .act (.enter ⟨1⟩)), (.root, .choose),
    (.child .root 0, .act (.enter ⟨1⟩)), (.root, .act (.enter ⟨2⟩))]

/-- The child is chosen at the first decision. -/
def crossingTrace : Trace :=
  [⟨"main @ start", ["main", "main.0"], 1⟩]

theorem no_stall_of_crossing_threads :
    ∃ state, Driven (Replay.ofTrace crossingTrace) 4 0 crossingThreads state ∧
      Observes LockId.Below ((fresh (Replay.ofTrace crossingTrace) 4).begin 0).2
        (crossingThreads ++ [(.root, .act (.wait ⟨2⟩ true))]) ∧
      state.threads.isRunning .root = true ∧
      state.threads.reason? (.child .root 0) = some (.lock ⟨1⟩) ∧
      ¬ (state.step .root (.act (.wait ⟨2⟩ true))).2.Stuck ∧
      ∀ fault, (state.step .root (.act (.wait ⟨2⟩ true))).1 = .error (.fault fault) →
        fault.isStall = false := by
  have driven : Driven (Replay.ofTrace crossingTrace) 4 0 crossingThreads
      (reach _ crossingThreads) :=
    steps_iff_drive.2 (drive_eq_reach _ _ (by decide +kernel))
  have observes : Observes LockId.Below ((fresh (Replay.ofTrace crossingTrace) 4).begin 0).2
      (crossingThreads ++ [(.root, .act (.wait ⟨2⟩ true))]) := by decide +kernel
  obtain ⟨free, -, unstalled⟩ :=
    driven_ordered_locks (Replay.ofTrace crossingTrace) 4 0 LockId.Below driven .root
      (.act (.wait ⟨2⟩ true)) observes (by decide +kernel) rfl
  exact ⟨_, driven, observes, by decide +kernel, by decide +kernel, free,
    unstalled neverStalls_replay⟩

end Scheduler

end ScheduleSearch
