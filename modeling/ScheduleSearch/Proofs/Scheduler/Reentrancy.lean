import ScheduleSearch.Proofs.Monitor.Shares
import ScheduleSearch.Proofs.Scheduler.Runs

/-!
# Exact reentrancy

The share of a thread in a lock is the number of times it entered the lock without leaving it,
in every state of a run.  So a lock has one owner at most, and a thread that gave a lock up to
wait comes back as its owner at the depth it had.
-/

namespace ScheduleSearch

/-- How often an event of `actor` lets `thread` enter `lock`. -/
def Event.entries (event : Event) (actor thread : ThreadId) (lock : LockId) : Nat :=
  if actor.same thread && event == .act (.enter lock) then 1 else 0

/-- How often an event of `actor` lets `thread` leave `lock`. -/
def Event.exits (event : Event) (actor thread : ThreadId) (lock : LockId) : Nat :=
  if actor.same thread && event == .act (.leave lock) then 1 else 0

/-- How often a thread entered a lock in a history. -/
def History.entries (history : History) (thread : ThreadId) (lock : LockId) : Nat :=
  (history.map fun report => report.2.entries report.1 thread lock).sum

/-- How often a thread left a lock in a history. -/
def History.exits (history : History) (thread : ThreadId) (lock : LockId) : Nat :=
  (history.map fun report => report.2.exits report.1 thread lock).sum

/-- How often a thread entered a lock without leaving it. -/
def History.balance (history : History) (thread : ThreadId) (lock : LockId) : Int :=
  (history.entries thread lock : Int) - history.exits thread lock

private theorem History.entries_append (first second : History) (thread : ThreadId)
    (lock : LockId) :
    History.entries (first ++ second) thread lock =
      first.entries thread lock + second.entries thread lock := by
  simp only [History.entries, List.map_append, List.sum_append]

private theorem History.exits_append (first second : History) (thread : ThreadId) (lock : LockId) :
    History.exits (first ++ second) thread lock =
      first.exits thread lock + second.exits thread lock := by
  simp only [History.exits, List.map_append, List.sum_append]

theorem History.balance_append (first second : History) (thread : ThreadId) (lock : LockId) :
    History.balance (first ++ second) thread lock =
      first.balance thread lock + second.balance thread lock := by
  simp only [History.balance, History.entries_append, History.exits_append]
  push_cast
  omega

theorem History.balance_singleton (actor : ThreadId) (event : Event) (thread : ThreadId)
    (lock : LockId) :
    History.balance [(actor, event)] thread lock =
      (event.entries actor thread lock : Int) - event.exits actor thread lock := by
  simp only [History.balance, History.entries, History.exits, List.map_cons, List.map_nil,
    List.sum_cons, List.sum_nil, Nat.add_zero]

theorem Event.entries_enter (actor thread : ThreadId) (entered lock : LockId) :
    (Event.act (.enter entered)).entries actor thread lock =
      MonitorTable.unit actor entered thread lock := by
  simp [Event.entries, MonitorTable.unit, ThreadId.same_iff_lineage]

private theorem Event.exits_leave (actor thread : ThreadId) (left lock : LockId) :
    (Event.act (.leave left)).exits actor thread lock =
      MonitorTable.unit actor left thread lock := by
  simp [Event.exits, MonitorTable.unit, ThreadId.same_iff_lineage]

theorem Event.entries_of_ne {event : Event} {lock : LockId}
    (other : event ≠ .act (.enter lock)) (actor thread : ThreadId) :
    event.entries actor thread lock = 0 := by
  simp [Event.entries, other]

theorem Event.exits_of_ne {event : Event} {lock : LockId}
    (other : event ≠ .act (.leave lock)) (actor thread : ThreadId) :
    event.exits actor thread lock = 0 := by
  simp [Event.exits, other]

namespace Scheduler

variable {σ : Type} {state : Scheduler σ} {actor : ThreadId}

theorem monitors_stoodBack (state : Scheduler σ) (thread : ThreadId) :
    (state.stoodBack thread).monitors = state.monitors := by
  unfold stoodBack
  split <;> rfl

theorem monitors_grantPermit (state : Scheduler σ) (target : ThreadId) :
    (state.grantPermit target).monitors = state.monitors := by
  unfold grantPermit
  split <;> rfl

theorem monitors_setInterrupt (state : Scheduler σ) (target : ThreadId) :
    (state.setInterrupt target).monitors = (state.monitors.interrupt target).2 := by
  unfold setInterrupt
  dsimp only
  split
  · split
    · split <;> rfl
    · split <;> rfl
  · split <;> rfl

private theorem Coherent.share_prepare_of_neutral (coherent : state.Coherent) {event : Event}
    (notEnter : ∀ lock, event ≠ .act (.enter lock))
    (notLeave : ∀ lock, event ≠ .act (.leave lock)) (thread : ThreadId) (lock : LockId) :
    (state.prepare actor event).state.monitors.share thread lock =
      state.monitors.share thread lock := by
  match event with
  | .announce => rfl
  | .bind host => rfl
  | .exit => rfl
  | .choose =>
      change (state.stoodBack actor).monitors.share thread lock = _
      rw [monitors_stoodBack]
  | .readInterrupt clear => cases clear <;> rfl
  | .act (.yield site) =>
      change (stoodBack _ actor).monitors.share thread lock = _
      rw [monitors_stoodBack]
  | .act (.enter entered) => exact absurd rfl (notEnter entered)
  | .act (.leave left) => exact absurd rfl (notLeave left)
  | .act (.wait awaited timed) =>
      simp only [prepare, prepareAction]
      cases effect : state.monitors.wait actor awaited timed with
      | error fault => rfl
      | ok result =>
          obtain ⟨transition, after⟩ := result
          change (stoodBack _ actor).monitors.share thread lock = _
          rw [monitors_stoodBack]
          exact MonitorTable.share_wait effect thread lock
  | .act (.notify signalled) =>
      simp only [prepare, prepareAction]
      cases effect : state.monitors.notify actor signalled with
      | error fault => rfl
      | ok after => exact MonitorTable.share_notify effect thread lock
  | .act (.notifyAll signalled) =>
      simp only [prepare, prepareAction]
      cases effect : state.monitors.notifyAll actor signalled with
      | error fault => rfl
      | ok after => exact MonitorTable.share_notifyAll effect thread lock
  | .act .park =>
      simp only [prepare, prepareAction]
      split
      · rfl
      · split <;> rfl
  | .act (.unpark target) =>
      simp only [prepare, prepareAction]
      cases state.target target with
      | exited => rfl
      | unknown => rfl
      | live =>
          change (state.grantPermit target).monitors.share thread lock = _
          rw [monitors_grantPermit]
  | .act (.join joinee timed) =>
      simp only [prepare, prepareAction]
      cases state.target joinee with
      | exited => rfl
      | unknown => rfl
      | live =>
          cases timed with
          | true =>
              change (state.stoodBack actor).monitors.share thread lock = _
              rw [monitors_stoodBack]
          | false => rfl
  | .act (.interrupt target) =>
      simp only [prepare, prepareAction]
      cases state.target target with
      | exited => rfl
      | unknown => rfl
      | live =>
          change (state.setInterrupt target).monitors.share thread lock = _
          rw [monitors_setInterrupt]
          exact coherent.monitors.share_interrupt target thread lock

/-- How often an event lets a thread leave a lock: only its owner can. -/
def exits (state : Scheduler σ) (event : Event) (actor thread : ThreadId) (lock : LockId) : Nat :=
  if (state.monitors.monitorOf lock).isOwnedBy actor then event.exits actor thread lock else 0

/-- Before the choice, an event that enters a lock adds one to the share of the acting thread
and an event that leaves a lock takes one away. -/
theorem Coherent.share_prepare (coherent : state.Coherent) (event : Event) (thread : ThreadId)
    (lock : LockId) :
    (state.prepare actor event).state.monitors.share thread lock +
        state.exits event actor thread lock =
      state.monitors.share thread lock + event.entries actor thread lock := by
  have noExit : (∀ left, event ≠ .act (.leave left)) →
      state.exits event actor thread lock = 0 := by
    intro notLeave
    rw [exits, Event.exits_of_ne (notLeave lock), ite_self]
  by_cases enters : ∃ entered, event = .act (.enter entered)
  · obtain ⟨entered, rfl⟩ := enters
    rw [noExit nofun, Nat.add_zero, Event.entries_enter,
      ← coherent.monitors.share_enter actor entered]
    simp only [prepare, prepareAction]
    split <;> rfl
  · have notEnter : ∀ entered, event ≠ .act (.enter entered) := fun entered equal =>
      enters ⟨entered, equal⟩
    rw [Event.entries_of_ne (notEnter lock), Nat.add_zero]
    by_cases leaves : ∃ left, event = .act (.leave left)
    · obtain ⟨left, rfl⟩ := leaves
      rw [exits, Event.exits_leave]
      simp only [prepare, prepareAction]
      by_cases owns : state.monitors.Owns actor left
      · cases effect : state.monitors.leave actor left with
        | error fault =>
            exfalso
            by_cases inner : 1 < (state.monitors.monitorOf left).depth
            · rw [MonitorTable.leave_inner owns inner] at effect
              cases effect
            · rw [MonitorTable.leave_last owns (by omega)] at effect
              cases effect
        | ok result =>
            obtain ⟨transition, after⟩ := result
            have shares := coherent.monitors.share_leave effect thread lock
            change (stoodBack _ actor).monitors.share thread lock + _ = _
            rw [monitors_stoodBack]
            change after.share thread lock + _ = _
            rw [← shares]
            by_cases here : lock = left
            · rw [here, if_pos (Monitor.isOwnedBy_iff.2 owns)]
            · rw [MonitorTable.unit_elsewhere actor thread here, ite_self]
      · rw [MonitorTable.leave_of_not_owns owns]
        by_cases here : lock = left
        · rw [here, if_neg fun owned => owns (Monitor.isOwnedBy_iff.1 owned)]
          rfl
        · rw [MonitorTable.unit_elsewhere actor thread here, ite_self]
          rfl
    · have notLeave : ∀ left, event ≠ .act (.leave left) := fun left equal =>
        leaves ⟨left, equal⟩
      rw [noExit notLeave, Nat.add_zero]
      exact coherent.share_prepare_of_neutral notEnter notLeave thread lock

variable [DecisionSource σ]

/-- Choosing a thread leaves the shares alone. -/
theorem Coherent.share_pick (coherent : state.Coherent)
    (nobody : ∀ thread, state.threads.state? thread ≠ some .running) (label : String)
    (thread : ThreadId) (lock : LockId) :
    (state.pick label).2.monitors.share thread lock = state.monitors.share thread lock := by
  refine Coherent.pick_preserves
    (P := fun after => after.monitors.share thread lock = state.monitors.share thread lock)
    (fun _ _ kept => kept) ?_ label _ coherent nobody rfl
  intro before next beforeCoherent beforeNobody kept
  rw [monitors_promote beforeNobody, beforeCoherent.monitors.share_resume, kept]

theorem Coherent.share_step (coherent : state.Coherent)
    (runs : state.threads.state? actor = some .running) (event : Event) (thread : ThreadId)
    (lock : LockId) :
    (state.step actor event).2.monitors.share thread lock +
        state.exits event actor thread lock =
      state.monitors.share thread lock + event.entries actor thread lock := by
  rw [step_of_live (isLive_iff.2 ⟨_, runs⟩), ← coherent.share_prepare]
  have ready := coherent.ready runs event
  cases prepared : state.prepare actor event with
  | settled outcome after => rfl
  | choosing label after =>
      rw [prepared] at ready
      rw [Prepared.complete_choosing]
      dsimp only
      rw [ready.1.share_pick ready.2]
      rfl

/-- An event that leaves a lock and succeeds was one of its owner. -/
theorem exits_of_ok (runs : state.threads.state? actor = some .running) {event : Event}
    {reply : Reply} {after : Scheduler σ} (stepped : state.step actor event = (.ok reply, after))
    (thread : ThreadId) (lock : LockId) :
    state.exits event actor thread lock = event.exits actor thread lock := by
  unfold exits
  split
  next => rfl
  next foreign =>
    by_cases leaves : event = .act (.leave lock)
    · exfalso
      have notOwns : ¬ state.monitors.Owns actor lock := fun owns =>
        foreign (Monitor.isOwnedBy_iff.2 owns)
      rw [step_of_live (isLive_iff.2 ⟨_, runs⟩), leaves] at stepped
      simp only [prepare, prepareAction, MonitorTable.leave_of_not_owns notOwns] at stepped
      cases stepped
    · rw [Event.exits_of_ne leaves]

/-- In a run every share is the number of entries without exit. -/
theorem Driven.share_eq_balance {source : σ} {maxDecisions : Nat} {host : Host}
    {history : History} (driven : Driven source maxDecisions host history state)
    (thread : ThreadId) (lock : LockId) :
    (state.monitors.share thread lock : Int) = history.balance thread lock := by
  have begun := coherent_begun source maxDecisions host
  unfold Driven at driven
  -- Shares and balances start at zero and are changed alike by every event.
  induction driven with
  | refl => rfl
  | @report history state after actor event reply steps runs stepped inductionHypothesis =>
      have running := RunStates.isRunning_iff.1 runs
      have shares := (Steps.coherent steps begun).share_step running event thread lock
      rw [stepped, exits_of_ok running stepped] at shares
      rw [History.balance_append, History.balance_singleton]
      dsimp only at shares
      omega

/-! ## Where the entries are written down -/

/-- A count of entries is written down where it belongs: in the depth of the lock for its
owner, with the place of a queued thread, and nowhere for anybody else. -/
structure Ledger (state : Scheduler σ) (count : ThreadId → LockId → Int) : Prop where
  owner : ∀ thread lock, state.monitors.Owns thread lock →
    (state.monitors.depth lock : Int) = count thread lock ∧ 1 ≤ count thread lock
  entry : ∀ thread lock depth,
    savedDepth? (state.monitors.monitorOf lock).entryQueue thread = some depth →
      (depth : Int) = count thread lock ∧ 1 ≤ count thread lock
  signal : ∀ thread lock depth,
    savedDepth? (state.monitors.monitorOf lock).signalQueue thread = some depth →
      (depth : Int) = count thread lock ∧ 1 ≤ count thread lock
  absent : ∀ thread lock, ¬ state.monitors.Owns thread lock →
    ¬ Queued (state.monitors.monitorOf lock).entryQueue thread →
    ¬ Queued (state.monitors.monitorOf lock).signalQueue thread → count thread lock = 0
  exclusive : ∀ lock first second, 0 < count first lock → 0 < count second lock →
    ¬ Queued (state.monitors.monitorOf lock).entryQueue first →
    ¬ Queued (state.monitors.monitorOf lock).signalQueue first →
    ¬ Queued (state.monitors.monitorOf lock).entryQueue second →
    ¬ Queued (state.monitors.monitorOf lock).signalQueue second → first.same second = true
  running : ∀ thread lock, state.threads.isRunning thread = true →
    (state.monitors.Owns thread lock ↔ 0 < count thread lock)

omit [DecisionSource σ] in
theorem Coherent.ledger (coherent : state.Coherent) {count : ThreadId → LockId → Int}
    (shares : ∀ thread lock, (state.monitors.share thread lock : Int) = count thread lock) :
    state.Ledger count := by
  have sound := coherent.monitors
  have absent : ∀ thread lock, ¬ state.monitors.Owns thread lock →
      ¬ Queued (state.monitors.monitorOf lock).entryQueue thread →
      ¬ Queued (state.monitors.monitorOf lock).signalQueue thread → count thread lock = 0 := by
    intro thread lock foreign notEntry notSignal
    rw [← shares, MonitorTable.share_of_absent foreign notEntry notSignal]
    rfl
  have owner : ∀ thread lock, state.monitors.Owns thread lock →
      (state.monitors.depth lock : Int) = count thread lock ∧ 1 ≤ count thread lock := by
    intro thread lock owns
    have share := sound.share_of_owns owns
    rw [← shares, share.1, MonitorTable.depth_eq]
    omega
  have owns : ∀ thread lock, 0 < count thread lock →
      ¬ Queued (state.monitors.monitorOf lock).entryQueue thread →
      ¬ Queued (state.monitors.monitorOf lock).signalQueue thread →
      state.monitors.Owns thread lock := by
    intro thread lock positive notEntry notSignal
    by_contra foreign
    have zero := absent thread lock foreign notEntry notSignal
    omega
  refine ⟨owner, ?_, ?_, absent, ?_, ?_⟩
  · intro thread lock depth saved
    have share := sound.share_of_entry saved
    rw [← shares, share.1]
    omega
  · intro thread lock depth saved
    have share := sound.share_of_signal saved
    rw [← shares, share.1]
    omega
  · intro lock first second firstEntered secondEntered firstEntry firstSignal secondEntry
      secondSignal
    obtain ⟨one, held, firstSame⟩ := owns first lock firstEntered firstEntry firstSignal
    obtain ⟨other, alsoHeld, secondSame⟩ := owns second lock secondEntered secondEntry secondSignal
    have equal : one = other := Option.some.inj (held.symm.trans alsoHeld)
    rw [ThreadId.same_iff_lineage, ← firstSame, equal]
    exact secondSame
  · intro thread lock runs
    have fits := coherent.fits_of (RunStates.isRunning_iff.1 runs)
    constructor
    · intro holds
      have counted := (owner thread lock holds).2
      omega
    · intro positive
      exact owns thread lock positive (sound.not_queued_of_not_entering fits.1 lock)
        (sound.not_queued_of_not_waiting fits.2.1 lock)

/-- A wait that succeeds was one of the owner of the lock. -/
theorem owns_of_wait_ok (runs : state.threads.state? actor = some .running) {lock : LockId}
    {timed : Bool} {reply : Reply} {after : Scheduler σ}
    (stepped : state.step actor (.act (.wait lock timed)) = (.ok reply, after)) :
    state.monitors.Owns actor lock := by
  by_contra foreign
  rw [step_of_live (isLive_iff.2 ⟨_, runs⟩)] at stepped
  simp only [prepare, prepareAction, MonitorTable.wait_of_not_owns timed foreign] at stepped
  cases stepped

/-- What other threads do does not count for a thread. -/
theorem balance_of_others {history : History} {thread : ThreadId}
    (others : ∀ report ∈ history, report.1.same thread = false) (lock : LockId) :
    history.balance thread lock = 0 := by
  have entries : history.entries thread lock = 0 := by
    apply List.sum_eq_zero_iff_forall_eq_nat.2
    intro count member
    obtain ⟨report, inside, rfl⟩ := List.mem_map.1 member
    rw [Event.entries, others report inside]
    rfl
  have exits : history.exits thread lock = 0 := by
    apply List.sum_eq_zero_iff_forall_eq_nat.2
    intro count member
    obtain ⟨report, inside, rfl⟩ := List.mem_map.1 member
    rw [Event.exits, others report inside]
    rfl
  rw [History.balance, entries, exits]
  rfl

/-- In every state of a run, and also after the first event that fails, it is written down
exactly how often each thread entered each lock without leaving it.  A thread that waited is
running again only as the owner of the lock, at the depth at which it gave the lock up. -/
theorem driven_reentrancy (source : σ) (maxDecisions : Nat) (host : Host) {history : History}
    (driven : Driven source maxDecisions host history state) :
    state.Ledger history.balance ∧
      (∀ actor event, state.threads.isRunning actor = true →
        (state.step actor event).2.Ledger fun thread lock =>
          history.balance thread lock + event.entries actor thread lock -
            state.exits event actor thread lock) ∧
      ∀ actor lock timed reply waited between later,
        state.threads.isRunning actor = true →
        state.step actor (.act (.wait lock timed)) = (.ok reply, waited) →
        Steps waited between later →
        (∀ report ∈ between, report.1.same actor = false) →
        later.threads.isRunning actor = true →
        later.monitors.Owns actor lock ∧
          later.monitors.depth lock = state.monitors.depth lock := by
  have coherent := driven.coherent
  have shares := driven.share_eq_balance
  have ledger := coherent.ledger shares
  refine ⟨ledger, ?_, ?_⟩
  · intro actor event runs
    have running := RunStates.isRunning_iff.1 runs
    apply (coherent.reported running event).1.ledger
    intro thread lock
    have stepped := coherent.share_step running event thread lock
    have before := shares thread lock
    omega
  · intro actor lock timed reply waited between later runs stepped steps others runsAgain
    have owns := owns_of_wait_ok (RunStates.isRunning_iff.1 runs) stepped
    have all : Driven source maxDecisions host (history ++ [(actor, _)] ++ between) later :=
      Steps.trans (.report driven runs stepped) steps
    have laterLedger := all.coherent.ledger all.share_eq_balance
    have same : History.balance (history ++ [(actor, .act (.wait lock timed))] ++ between) actor
        lock = history.balance actor lock := by
      have noEntry : Event.act (.wait lock timed) ≠ .act (.enter lock) := nofun
      have noExit : Event.act (.wait lock timed) ≠ .act (.leave lock) := nofun
      rw [History.balance_append, History.balance_append, History.balance_singleton,
        balance_of_others others, Event.entries_of_ne noEntry, Event.exits_of_ne noExit]
      omega
    have before := ledger.owner actor lock owns
    have ownsAgain : later.monitors.Owns actor lock := by
      rw [laterLedger.running actor lock runsAgain, same]
      omega
    have behind := laterLedger.owner actor lock ownsAgain
    refine ⟨ownsAgain, ?_⟩
    rw [same] at behind
    omega

/-- The root enters a lock twice, waits while its child enters, notifies and leaves, and holds
the lock twice again. -/
theorem reentrancy_across_wait :
    ∃ state waited later,
      Driven (Script.ofAnswers []) 4 0
        [(.root, .announce), (.root, .act (.enter ⟨7⟩)), (.root, .act (.enter ⟨7⟩))] state ∧
      (state.step .root (.act (.wait ⟨7⟩ false))).2 = waited ∧
      Steps waited
        [(.child .root 0, .act (.enter ⟨7⟩)), (.child .root 0, .act (.notify ⟨7⟩)),
          (.child .root 0, .act (.leave ⟨7⟩))] later ∧
      state.Ledger (History.balance
        [(.root, .announce), (.root, .act (.enter ⟨7⟩)), (.root, .act (.enter ⟨7⟩))]) ∧
      later.threads.isRunning .root = true ∧ later.monitors.Owns .root ⟨7⟩ ∧
      later.monitors.depth ⟨7⟩ = state.monitors.depth ⟨7⟩ ∧
      state.monitors.depth ⟨7⟩ = 2 := by
  have reached := drive_eq_reach ((fresh (Script.ofAnswers []) 4).begin 0).2
    [(.root, .announce), (.root, .act (.enter ⟨7⟩)), (.root, .act (.enter ⟨7⟩))]
    (by decide +kernel)
  have waits := drive_eq_reach (reach ((fresh (Script.ofAnswers []) 4).begin 0).2
    [(.root, .announce), (.root, .act (.enter ⟨7⟩)), (.root, .act (.enter ⟨7⟩))])
    [(.root, .act (.wait ⟨7⟩ false))] (by decide +kernel)
  have returns := drive_eq_reach (reach (reach ((fresh (Script.ofAnswers []) 4).begin 0).2
    [(.root, .announce), (.root, .act (.enter ⟨7⟩)), (.root, .act (.enter ⟨7⟩))])
    [(.root, .act (.wait ⟨7⟩ false))])
    [(.child .root 0, .act (.enter ⟨7⟩)), (.child .root 0, .act (.notify ⟨7⟩)),
      (.child .root 0, .act (.leave ⟨7⟩))] (by decide +kernel)
  have driven : Driven (Script.ofAnswers []) 4 0 _ _ := steps_iff_drive.2 reached
  have steps := steps_iff_drive.2 returns
  obtain ⟨runs, reply, stepped⟩ := drive_singleton.1 waits
  obtain ⟨ledger, -, restored⟩ := driven_reentrancy (Script.ofAnswers []) 4 0 driven
  have again := restored .root ⟨7⟩ false reply _ _ _ runs stepped steps (by decide)
    (by decide +kernel)
  exact ⟨_, _, _, driven, congrArg Prod.snd stepped, steps, ledger, by decide +kernel, again.1,
    again.2, by decide +kernel⟩

end Scheduler

end ScheduleSearch
