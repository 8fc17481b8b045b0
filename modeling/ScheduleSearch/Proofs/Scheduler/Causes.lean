import ScheduleSearch.Proofs.Scheduler.Awakenings

/-!
# Waiting ends for its own cause only

A thread is blocked by an event of its own and then does nothing, while the other threads go
on.  It can only be runnable or running again once the event came that this kind of waiting is
for: the exit of its joinee, a permit or an interrupt, an interrupt or a signal of an owner that
let the lock go afterwards, or the end of a hold of the lock.  If it runs again after it entered
a lock or waited on one, then as the owner of the lock.
-/

namespace ScheduleSearch.Scheduler

variable {σ : Type} [DecisionSource σ] {waiting current : Scheduler σ} {actor thread : ThreadId}
  {lock : LockId} {event : Event} {reason : BlockReason} {later : History}

/-- In a history, a thread gave the lock up that it owned. -/
def Freed (waiting : Scheduler σ) (lock : LockId) (later : History) : Prop :=
  ∃ early giver event late releasing, later = early ++ (giver, event) :: late ∧
    Steps waiting early releasing ∧ releasing.Releases giver event lock

/-- In a history, `sender` sent a signal on the lock, which it owned; it is not `thread`. -/
def Sent (waiting : Scheduler σ) (thread : ThreadId) (lock : LockId) (sender : ThreadId)
    (later : History) : Prop :=
  ∃ early event late sending, later = early ++ (sender, event) :: late ∧
    Steps waiting early sending ∧ sending.monitors.Owns sender lock ∧
    sender.same thread = false ∧
    (event = .act (.notify lock) ∨ event = .act (.notifyAll lock))

/-- In a history, a thread other than `thread` sent a signal on the lock, which it owned, and
gave the lock up afterwards. -/
def Signalled (waiting : Scheduler σ) (thread : ThreadId) (lock : LockId) (later : History) :
    Prop :=
  ∃ early sender giver event late releasing, later = early ++ (giver, event) :: late ∧
    Sent waiting thread lock sender early ∧ giver.same sender = true ∧
    Steps waiting early releasing ∧ releasing.Releases giver event lock

/-- What a thread is blocked for in `waiting` has come in the history that follows. -/
def Caused (waiting : Scheduler σ) (thread : ThreadId) (later : History) : BlockReason → Prop
  | .lock lock => Freed waiting lock later
  | .signal lock =>
      (∃ report ∈ later, report.2.Interrupts thread) ∨ Signalled waiting thread lock later
  | .park => ∃ report ∈ later, report.2.Unparks thread ∨ report.2.Interrupts thread
  | .join joinee => ∃ report ∈ later, report.2 = .exit ∧ report.1.same joinee = true

private theorem Freed.append (freed : Freed waiting lock later) (more : History) :
    Freed waiting lock (later ++ more) := by
  obtain ⟨early, giver, event, late, releasing, rfl, steps, releases⟩ := freed
  exact ⟨early, giver, event, late ++ more, releasing, by simp, steps, releases⟩

private theorem Sent.append {sender : ThreadId} (sent : Sent waiting thread lock sender later)
    (more : History) : Sent waiting thread lock sender (later ++ more) := by
  obtain ⟨early, event, late, sending, rfl, steps, owns, other, signals⟩ := sent
  exact ⟨early, event, late ++ more, sending, by simp, steps, owns, other, signals⟩

private theorem Signalled.append (signalled : Signalled waiting thread lock later)
    (more : History) :
    Signalled waiting thread lock (later ++ more) := by
  obtain ⟨early, sender, giver, event, late, releasing, rfl, sent, same, steps, releases⟩ :=
    signalled
  exact ⟨early, sender, giver, event, late ++ more, releasing, by simp, sent, same, steps,
    releases⟩

private theorem Caused.append (caused : Caused waiting thread later reason) (more : History) :
    Caused waiting thread (later ++ more) reason := by
  cases reason with
  | lock lock => exact Freed.append caused more
  | signal lock =>
      rcases caused with ⟨report, member, interrupts⟩ | signalled
      · exact Or.inl ⟨report, List.mem_append_left _ member, interrupts⟩
      · exact Or.inr (signalled.append more)
  | park =>
      obtain ⟨report, member, prompts⟩ := caused
      exact ⟨report, List.mem_append_left _ member, prompts⟩
  | join joinee =>
      obtain ⟨report, member, exits⟩ := caused
      exact ⟨report, List.mem_append_left _ member, exits⟩

/-- Every pending signal was sent since `waiting`, by the thread that owns the lock. -/
def PendingSent (waiting : Scheduler σ) (thread : ThreadId) (later : History)
    (current : Scheduler σ) (lock : LockId) : Prop :=
  0 < (current.monitors.monitorOf lock).pendingSignals →
    ∃ sender, Sent waiting thread lock sender later ∧ current.monitors.Owns sender lock

/-- The thread still waits as it did in `waiting`, and pending signals are accounted for, or
what it waited for has come. -/
def Accounted (waiting : Scheduler σ) (thread : ThreadId) (reason : BlockReason)
    (later : History) (current : Scheduler σ) : Prop :=
  (current.threads.state? thread = some (.blocked (some reason)) ∧
    ∀ lock, reason = .signal lock → PendingSent waiting thread later current lock) ∨
  Caused waiting thread later reason

private theorem PendingSent.step (sent : PendingSent waiting thread later current lock)
    (steps : Steps waiting later current) (coherent : current.Coherent)
    (runs : current.threads.state? actor = some .running) (other : actor.same thread = false)
    (event : Event) :
    PendingSent waiting thread (later ++ [(actor, event)]) (current.step actor event).2 lock := by
  intro pending
  -- An earlier signal stays accounted for, since its sender still owns the lock.
  rcases coherent.pending_step runs event pending with ⟨before, same⟩ | ⟨owns, still, signals⟩
  · obtain ⟨sender, earlier, owned⟩ := sent before
    refine ⟨sender, earlier.append _, ?_⟩
    rw [MonitorTable.Owns, same]
    exact owned
  · exact ⟨actor, ⟨later, event, [], current, rfl, steps, owns, other, signals⟩, still⟩

/-- An event that rouses a thread is what it waited for. -/
theorem Rouses.caused (rouses : current.Rouses actor event thread reason)
    (steps : Steps waiting later current)
    (sent : ∀ lock, reason = .signal lock → PendingSent waiting thread later current lock) :
    Caused waiting thread (later ++ [(actor, event)]) reason := by
  have last : (actor, event) ∈ later ++ [(actor, event)] :=
    List.mem_append_right _ (List.mem_singleton_self _)
  cases reason with
  | lock lock => exact ⟨later, actor, event, [], current, rfl, steps, rouses⟩
  | signal lock =>
      rcases rouses with interrupts | ⟨releases, pending⟩
      · exact Or.inl ⟨_, last, interrupts⟩
      · obtain ⟨sender, earlier, owned⟩ := sent lock rfl pending
        obtain ⟨call, called, frees⟩ := releases
        exact Or.inr ⟨later, sender, actor, event, [], current, rfl, earlier,
          MonitorTable.same_of_owns frees.2.1 owned, steps, call, called, frees⟩
  | park => exact ⟨_, last, rouses⟩
  | join joinee => exact ⟨_, last, rouses⟩

/-- An event of another thread leaves a blocked thread as it is, or is what it waited for. -/
theorem Accounted.step (accounted : Accounted waiting thread reason later current)
    (steps : Steps waiting later current) (coherent : current.Coherent)
    (runs : current.threads.state? actor = some .running) (other : actor.same thread = false)
    (event : Event) :
    Accounted waiting thread reason (later ++ [(actor, event)]) (current.step actor event).2 := by
  have apart : thread.lineage ≠ actor.lineage := by
    rw [← Bool.not_eq_true, ThreadId.same_iff_lineage] at other
    exact Ne.symm other
  rcases accounted with ⟨waits, sent⟩ | caused
  · rcases coherent.stays_step runs event apart waits with stays | rouses
    · refine Or.inl ⟨stays, fun lock signal => ?_⟩
      exact (sent lock signal).step steps coherent runs other event
    · exact Or.inr (rouses.caused steps sent)
  · exact Or.inr (caused.append _)

private theorem Steps.accounted (steps : Steps waiting later current) (coherent : waiting.Coherent)
    (begun : Accounted waiting thread reason [] waiting)
    (others : ∀ report ∈ later, report.1.same thread = false) :
    Accounted waiting thread reason later current := by
  induction steps with
  | refl => exact begun
  | @report history state after actor event reply steps runs stepped inductionHypothesis =>
      have earlier := inductionHypothesis fun report member =>
        others report (List.mem_append_left _ member)
      have other : actor.same thread = false :=
        others (actor, event) (List.mem_append_right _ (List.mem_singleton_self _))
      have accounted :=
        earlier.step steps (steps.coherent coherent) (RunStates.isRunning_iff.1 runs) other event
      rw [stepped] at accounted
      exact accounted

/-- No signal is on its way to a thread that begins to wait for one. -/
theorem Coherent.nothing_pending {state : Scheduler σ} {reply : Reply}
    (coherent : state.Coherent) (runs : state.threads.state? thread = some .running)
    (stepped : state.step thread event = (.ok reply, waiting))
    (blocksFor : event.blocksFor? = some (.signal lock))
    (awaits : waiting.monitors.waitingFor? thread = some lock) :
    ¬ 0 < (waiting.monitors.monitorOf lock).pendingSignals := by
  match event, blocksFor with
  | .act (.wait awaited false), waits =>
      cases waits
      intro pending
      have owns := owns_of_wait_ok runs stepped
      obtain rfl : (state.step thread (.act (.wait lock false))).2 = waiting :=
        congrArg Prod.snd stepped
      have sound := (coherent.reported runs (.act (.wait lock false))).1.monitors
      have queued := (sound.waitingFor_iff thread lock).1 awaits
      rcases coherent.pending_step runs _ pending with ⟨-, same⟩ | ⟨-, -, sent | sent⟩
      · refine sound.not_owns_of_queued (Or.inr queued) ?_
        rw [MonitorTable.Owns, same]
        exact owns
      · cases sent
      · cases sent

/-- A thread that entered a lock more often than it left it owns the lock whenever it runs. -/
theorem Driven.owns_again {source : σ} {maxDecisions : Nat} {host : Host} {history : History}
    {state : Scheduler σ} (driven : Driven source maxDecisions host history state)
    (steps : Steps state later current)
    (others : ∀ report ∈ later, report.1.same thread = false)
    (runs : current.threads.isRunning thread = true)
    (entered : 0 < history.balance thread lock) : current.monitors.Owns thread lock := by
  have all : Driven source maxDecisions host (history ++ later) current := Steps.trans driven steps
  have ledger := all.coherent.ledger all.share_eq_balance
  rw [ledger.running thread lock runs, History.balance_append, balance_of_others others]
  omega

/-- Every event of a thread that leaves it waiting for a lock, or for a signal on one, leaves it
with more entries into the lock than exits. -/
theorem Driven.entered_of_blocked {source : σ} {maxDecisions : Nat} {host : Host}
    {history : History} {state : Scheduler σ} {reply : Reply}
    (driven : Driven source maxDecisions host history state)
    (runs : state.threads.isRunning thread = true)
    (stepped : state.step thread event = (.ok reply, waiting))
    (blocksFor : event.blocksFor? = some (.lock lock) ∨ event.blocksFor? = some (.signal lock)) :
    0 < History.balance (history ++ [(thread, event)]) thread lock := by
  have share := driven.share_eq_balance thread lock
  rw [History.balance_append, History.balance_singleton]
  match event, blocksFor with
  | .act (.enter entered), Or.inl waits =>
      cases waits
      have noExit : Event.act (.enter lock) ≠ .act (.leave lock) := nofun
      have unit : MonitorTable.unit thread lock thread lock = 1 :=
        (MonitorTable.unit_here thread thread lock).trans (if_pos rfl)
      rw [Event.entries_enter, Event.exits_of_ne noExit]
      omega
  | .act (.wait awaited false), Or.inr waits =>
      cases waits
      have noEntry : Event.act (.wait lock false) ≠ .act (.enter lock) := nofun
      have noExit : Event.act (.wait lock false) ≠ .act (.leave lock) := nofun
      have owns := owns_of_wait_ok (RunStates.isRunning_iff.1 runs) stepped
      have positive := ((driven.coherent.ledger driven.share_eq_balance).owner thread lock owns).2
      rw [Event.entries_of_ne noEntry, Event.exits_of_ne noExit]
      omega

/-- Waiting ends for its own cause only.  In a run a thread is blocked after an event of its
own, for what that event waits for, and does nothing after it.  When it runs again its cause has
come, and if it entered a lock or waited on one it owns the lock.  Until the cause comes it is
blocked for the same reason, whatever the other threads do, also after an event that fails. -/
theorem driven_causes (source : σ) (maxDecisions : Nat) (host : Host) {history : History}
    {state : Scheduler σ} {reply : Reply}
    (driven : Driven source maxDecisions host history state)
    (runs : state.threads.isRunning thread = true)
    (stepped : state.step thread event = (.ok reply, waiting))
    (blocked : waiting.threads.isBlocked thread = true)
    (steps : Steps waiting later current)
    (others : ∀ report ∈ later, report.1.same thread = false) :
    ∃ reason, event.blocksFor? = some reason ∧
      waiting.threads.reason? thread = some reason ∧
      (current.threads.isRunning thread = true →
        Caused waiting thread later reason ∧
          ∀ lock, reason = .lock lock ∨ reason = .signal lock →
            current.monitors.Owns thread lock) ∧
      (current.threads.reason? thread = some reason ∨ Caused waiting thread later reason) ∧
      ∀ actor next, current.threads.isRunning actor = true → actor.same thread = false →
        (current.step actor next).2.threads.reason? thread = some reason ∨
          Caused waiting thread (later ++ [(actor, next)]) reason := by
  have coherent := driven.coherent
  have running := RunStates.isRunning_iff.1 runs
  have waitingCoherent : waiting.Coherent := by
    have reported := coherent.reported running event
    rw [stepped] at reported
    exact reported.1
  obtain ⟨reason, waits⟩ := waitingCoherent.agreement.blocked thread blocked
  have blocksFor : event.blocksFor? = some reason := by
    apply coherent.blocked_after_own running event
    rw [stepped]
    exact waits
  have begun : Accounted waiting thread reason [] waiting := by
    have found := RunStates.reason?_eq_some_iff.1 waits
    refine Or.inl ⟨found, ?_⟩
    rintro lock rfl pending
    have fits := waitingCoherent.fits_of found
    exact absurd pending (coherent.nothing_pending running stepped blocksFor fits.2.1)
  have accounted := steps.accounted waitingCoherent begun others
  have currentCoherent := steps.coherent waitingCoherent
  refine ⟨reason, blocksFor, waits, ?_, ?_, ?_⟩
  · intro runsAgain
    refine ⟨accounted.resolve_left fun still => ?_, ?_⟩
    · cases still.1.symm.trans (RunStates.isRunning_iff.1 runsAgain)
    · intro lock onLock
      have entered := driven.entered_of_blocked runs stepped
        (onLock.imp (fun equal => by rw [blocksFor, equal]) fun equal => by rw [blocksFor, equal])
      have continued : Driven source maxDecisions host (history ++ [(thread, event)]) waiting :=
        .report driven runs stepped
      exact continued.owns_again steps others runsAgain entered
  · exact accounted.imp_left fun still => RunStates.reason?_eq_some_iff.2 still.1
  · intro actor next actorRuns other
    have stepAccounted := accounted.step steps currentCoherent
      (RunStates.isRunning_iff.1 actorRuns) other next
    exact stepAccounted.imp_left fun still => RunStates.reason?_eq_some_iff.2 still.1

/-- The root announces a child and enters a lock. -/
def enteredRoot : History :=
  [(.root, .announce), (.root, .act (.enter ⟨7⟩))]

/-- The child enters the lock on which the root waits, sends a signal and leaves the lock. -/
def signallingChild : History :=
  [(.child .root 0, .act (.enter ⟨7⟩)), (.child .root 0, .act (.notify ⟨7⟩)),
    (.child .root 0, .act (.leave ⟨7⟩))]

/-- The root runs again as the owner of the lock, since the child signalled and let it go. -/
theorem cause_of_signalled_root :
    ∃ state waiting current, Driven (Script.ofAnswers []) 4 0 enteredRoot state ∧
      (state.step .root (.act (.wait ⟨7⟩ false))).2 = waiting ∧
      Steps waiting signallingChild current ∧
      current.threads.isRunning .root = true ∧ current.monitors.Owns .root ⟨7⟩ ∧
      Caused waiting .root signallingChild (.signal ⟨7⟩) := by
  have driven : Driven (Script.ofAnswers []) 4 0 enteredRoot (reach _ enteredRoot) :=
    steps_iff_drive.2 (drive_eq_reach _ _ (by decide +kernel))
  have waits := drive_eq_reach (reach ((fresh (Script.ofAnswers []) 4).begin 0).2 enteredRoot)
    [(.root, .act (.wait ⟨7⟩ false))] (by decide +kernel)
  have steps := steps_iff_drive.2 (drive_eq_reach
    (reach (reach ((fresh (Script.ofAnswers []) 4).begin 0).2 enteredRoot)
      [(.root, .act (.wait ⟨7⟩ false))]) signallingChild (by decide +kernel))
  obtain ⟨runs, reply, stepped⟩ := drive_singleton.1 waits
  obtain ⟨reason, blocksFor, -, returns, -⟩ := driven_causes (Script.ofAnswers []) 4 0 driven runs
    stepped (by decide +kernel) steps (by decide)
  cases blocksFor
  obtain ⟨caused, owns⟩ := returns (by decide +kernel)
  exact ⟨_, _, _, driven, congrArg Prod.snd stepped, steps, by decide +kernel,
    owns ⟨7⟩ (Or.inr rfl), caused⟩

end ScheduleSearch.Scheduler
