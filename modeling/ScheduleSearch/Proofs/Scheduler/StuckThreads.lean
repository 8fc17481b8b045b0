import ScheduleSearch.Proofs.Scheduler.Reasons
import ScheduleSearch.Proofs.Scheduler.Stalls

/-!
# Reports of stuck threads

When the scheduler reports a stall, it lists the live threads with what each of them waits for
and the place it passed last.  The report is right about every one of them: the lock is held by
another thread, the joined thread is stuck too, no permit and no interrupt was left unused, and
no signal was delivered since the thread waits for one.
-/

namespace ScheduleSearch

/-- The place that an event passes. -/
def Event.site? : Event → Option Site
  | .act (.yield site) => some site
  | _ => none

/-- The place that a thread passed last in a history. -/
def History.lastSite (history : History) (thread : ThreadId) : Option Site :=
  (history.filterMap fun report =>
    if report.1.same thread then report.2.site? else none).getLast?

private theorem History.lastSite_append (history : History) (actor : ThreadId) (event : Event)
    (thread : ThreadId) :
    History.lastSite (history ++ [(actor, event)]) thread =
      (if actor.same thread then event.site? else none).or (history.lastSite thread) := by
  rw [lastSite, lastSite, List.filterMap_append, List.getLast?_append]
  congr 1
  cases noted : (if actor.same thread then event.site? else none) with
  | none => simp [noted]
  | some site => simp [noted]

namespace Scheduler

variable {σ : Type} {state before after : Scheduler σ} {actor : ThreadId}

/-- What is recorded of the threads that did not exit and of the exit of the root. -/
structure Recorded (state : Scheduler σ) (history : History) : Prop where
  places : ∀ thread, state.hasExited thread = false →
    state.places.get? thread = history.lastSite thread
  root : state.rootExited = state.hasExited .root

theorem recorded_begun (source : σ) (maxDecisions : Nat) (host : Host) :
    ((fresh source maxDecisions).begin host).2.Recorded [] :=
  ⟨fun _ _ => rfl, rfl⟩

private theorem Recorded.of_same {history : History} (recorded : state.Recorded history)
    (places : after.places = state.places) (exited : after.exited = state.exited)
    (root : after.rootExited = state.rootExited) : after.Recorded history := by
  constructor
  · intro thread absent
    rw [hasExited, exited] at absent
    rw [places]
    exact recorded.places thread absent
  · rw [root, hasExited, exited]
    exact recorded.root

private theorem Recorded.of_silent {history : History} (recorded : state.Recorded history)
    (actor : ThreadId) {event : Event} (silent : event.site? = none) :
    state.Recorded (history ++ [(actor, event)]) := by
  refine ⟨fun thread absent => ?_, recorded.root⟩
  rw [History.lastSite_append, silent, ite_self, Option.none_or]
  exact recorded.places thread absent

private theorem isRoot_iff {thread : ThreadId} :
    thread.isRoot = true ↔ ThreadId.root.lineage = thread.lineage := by
  cases thread with
  | root => simp [ThreadId.isRoot]
  | spawned parent seq name =>
      refine ⟨nofun, fun equal => ?_⟩
      have sizes := congrArg List.length equal
      simp only [ThreadId.length_lineage, ThreadId.depth] at sizes
      omega

private theorem Recorded.exit {history : History} (recorded : state.Recorded history)
    (actor : ThreadId) : (state.forget actor).Recorded (history ++ [(actor, .exit)]) := by
  constructor
  · intro thread absent
    rw [← Bool.not_eq_true, hasExited_forget, not_or] at absent
    obtain ⟨different, before⟩ := absent
    change (state.places.erase actor).get? thread = _
    rw [History.lastSite_append, Table.get?_erase]
    simp only [ThreadId.compare_eq_iff]
    rw [if_neg different]
    change _ = (if actor.same thread then none else none).or _
    rw [ite_self, Option.none_or]
    exact recorded.places thread (Bool.not_eq_true _ ▸ before)
  · change (state.rootExited || actor.isRoot) = _
    rw [Bool.eq_iff_iff, hasExited_forget, Bool.or_eq_true, isRoot_iff, recorded.root]
    exact or_comm

theorem Recorded.noted {history : History} (recorded : state.Recorded history)
    (actor : ThreadId) (event : Event) :
    (state.noted actor event).Recorded (history ++ [(actor, event)]) := by
  match event with
  | .announce => exact (recorded.of_silent actor rfl).of_same rfl rfl rfl
  | .bind host => exact (recorded.of_silent actor rfl).of_same rfl rfl rfl
  | .exit => exact recorded.exit actor
  | .choose => exact recorded.of_silent actor rfl
  | .readInterrupt clear => exact recorded.of_silent actor rfl
  | .act (.yield site) =>
      refine ⟨fun thread absent => ?_, recorded.root⟩
      change (state.places.insert actor site).get? thread = _
      rw [History.lastSite_append, Table.get?_insert]
      simp only [ThreadId.compare_eq_iff, ThreadId.same_iff_lineage]
      by_cases here : thread.lineage = actor.lineage
      · rw [if_pos here, if_pos here.symm]
        rfl
      · rw [if_neg here, if_neg (Ne.symm here), Option.none_or]
        exact recorded.places thread absent
  | .act (.enter lock) => exact recorded.of_silent actor rfl
  | .act (.leave lock) => exact recorded.of_silent actor rfl
  | .act (.wait lock timed) => exact recorded.of_silent actor rfl
  | .act (.notify lock) => exact recorded.of_silent actor rfl
  | .act (.notifyAll lock) => exact recorded.of_silent actor rfl
  | .act .park => exact recorded.of_silent actor rfl
  | .act (.unpark target) => exact recorded.of_silent actor rfl
  | .act (.join joinee timed) => exact recorded.of_silent actor rfl
  | .act (.interrupt target) => exact recorded.of_silent actor rfl

private theorem mem_stuckThreads {entry : StuckThread} (member : entry ∈ state.stuckThreads) :
    state.threads.state? entry.thread = some (.blocked entry.reason) ∧
      entry.lastSeen = (state.places.get? entry.thread).map Site.text := by
  obtain ⟨⟨thread, reason⟩, listed, rfl⟩ := List.mem_map.1 member
  obtain ⟨⟨key, run⟩, inside, equal⟩ := List.mem_map.1 listed
  obtain ⟨stored, isBlocked⟩ := List.mem_filter.1 inside
  cases equal
  cases run with
  | running => cases isBlocked
  | runnable => cases isBlocked
  | blocked reason => exact ⟨Table.get?_of_mem stored, rfl⟩

private theorem stuckThreads_ordered (state : Scheduler σ) :
    state.stuckThreads.Pairwise fun earlier later =>
      compare earlier.thread.lineage later.thread.lineage = .lt := by
  rw [stuckThreads, RunStates.blocked, List.map_map, List.pairwise_map]
  refine (state.threads.table.ascending.filter _).imp ?_
  intro earlier later below
  rw [ThreadId.compare_eq_lineage] at below
  exact below

private theorem Stuck.exists_mem (stuck : state.Stuck) {thread : ThreadId}
    (live : state.isLive thread = true) :
    ∃ entry ∈ state.stuckThreads, entry.thread.same thread = true := by
  obtain ⟨run, found⟩ := isLive_iff.1 live
  obtain ⟨entry, inside, same, value⟩ := Table.mem_of_get? found
  have isBlocked : entry.2.isBlocked = true := by
    rw [value]
    cases run with
    | running => exact absurd found (stuck.2 thread).1
    | runnable => exact absurd found (stuck.2 thread).2
    | blocked reason => rfl
  refine ⟨_, List.mem_map_of_mem (List.mem_map_of_mem (List.mem_filter.2 ⟨inside, isBlocked⟩)), ?_⟩
  rw [ThreadId.same_iff_lineage]
  exact (ThreadId.compare_eq_iff.1 same).symm

variable [DecisionSource σ]

theorem Recorded.step {history : History} (recorded : state.Recorded history)
    (coherent : state.Coherent) (runs : state.threads.state? actor = some .running)
    (event : Event) : (state.step actor event).2.Recorded (history ++ [(actor, event)]) := by
  have frame := coherent.frame_step runs event
  exact (recorded.noted actor event).of_same frame.places frame.exited frame.rootExited

private theorem Driven.recorded {source : σ} {maxDecisions : Nat} {host : Host} {history : History}
    (driven : Driven source maxDecisions host history state) : state.Recorded history := by
  refine driven.preserves (P := fun history state => state.Recorded history)
    (recorded_begun source maxDecisions host) ?_
  intro history state actor event driven runs recorded
  exact recorded.step driven.coherent (RunStates.isRunning_iff.1 runs) event

/-- The thread waits for a signal on the lock, and none came for it since it does: it did
nothing more, nobody interrupted it, and it never left the signal queue. -/
inductive Unsignalled (first : Scheduler σ) (thread : ThreadId) (lock : LockId) :
    History → Scheduler σ → Prop
  | waits {history : History} {state : Scheduler σ} {actor : ThreadId}
      (steps : Steps first history state) (runs : state.threads.isRunning actor = true)
      (own : actor.same thread = true)
      (queued : Queued ((state.step actor (.act (.wait lock false))).2.monitors.monitorOf
        lock).signalQueue thread) :
      Unsignalled first thread lock (history ++ [(actor, .act (.wait lock false))])
        (state.step actor (.act (.wait lock false))).2
  | stays {history : History} {state : Scheduler σ} {actor : ThreadId} {event : Event}
      (steps : Steps first history state) (runs : state.threads.isRunning actor = true)
      (earlier : Unsignalled first thread lock history state)
      (other : actor.same thread = false)
      (uninterrupted : ∀ target, event = .act (.interrupt target) → target.same thread = false)
      (queued : Queued ((state.step actor event).2.monitors.monitorOf lock).signalQueue thread) :
      Unsignalled first thread lock (history ++ [(actor, event)]) (state.step actor event).2

/-- The choice takes nobody out of a signal queue. -/
theorem Coherent.waiting_step (coherent : state.Coherent)
    (runs : state.threads.state? actor = some .running) (event : Event) :
    (state.step actor event).2.monitors.waiting =
      ((event.callOf? actor).elim state.monitors state.monitors.next).waiting := by
  rw [← coherent.monitors_prepare]
  refine coherent.step_preserves (P := fun after => after.monitors.waiting = _) runs rfl ?_
  intro ready label readyCoherent nobody same
  exact (readyCoherent.frame_pick nobody label).waiting.trans same

theorem Event.eq_wait_of_reason? {event : Event} {lock : LockId}
    (waits : event.reason? = some (.signal lock)) : event = .act (.wait lock false) := by
  match event with
  | .act (.wait awaited false) =>
      cases waits
      rfl

/-- A thread that awaits a signal after an event of another thread was not interrupted. -/
theorem Coherent.uninterrupted (coherent : state.Coherent)
    (runs : state.threads.state? actor = some .running) {thread target : ThreadId} {lock : LockId}
    (before : state.threads.reason? thread = some (.signal lock))
    (still : (state.step actor (.act (.interrupt target))).2.threads.reason? thread =
      some (.signal lock)) : target.same thread = false := by
  rw [← Bool.not_eq_true, ThreadId.same_iff_lineage]
  intro same
  have fits := coherent.fits_of (RunStates.reason?_eq_some_iff.1 before)
  have awaits : state.monitors.waitingFor? target = some lock :=
    (state.monitors.waitingFor?_congr same).trans fits.2.1
  obtain ⟨-, -, gone⟩ := MonitorTable.interrupt_moves coherent.monitors awaits
  have afterCoherent := (coherent.reported runs (.act (.interrupt target))).1
  have afterFits := afterCoherent.fits_of (RunStates.reason?_eq_some_iff.1 still)
  have waiting := coherent.waiting_step runs (.act (.interrupt target))
  have stillAwaits := afterFits.2.1
  rw [MonitorTable.waitingFor?, waiting] at stillAwaits
  have same' : (state.monitors.next (.interrupt target)).waitingFor? target =
      (state.monitors.next (.interrupt target)).waitingFor? thread :=
    MonitorTable.waitingFor?_congr _ same
  cases gone.symm.trans (same'.trans stillAwaits)

/-- Whoever is blocked for a signal after an event was not sent one since it waits. -/
theorem Steps.unsignalled_step {first : Scheduler σ} {history : History}
    (steps : Steps first history state) (coherent : state.Coherent)
    (earlier : ∀ thread lock, state.threads.reason? thread = some (.signal lock) →
      Unsignalled first thread lock history state)
    (runs : state.threads.isRunning actor = true) (event : Event) (thread : ThreadId)
    (lock : LockId)
    (waits : (state.step actor event).2.threads.reason? thread = some (.signal lock)) :
    Unsignalled first thread lock (history ++ [(actor, event)]) (state.step actor event).2 := by
  have running := RunStates.isRunning_iff.1 runs
  have afterCoherent := (coherent.reported running event).1
  have afterFits := afterCoherent.fits_of (RunStates.reason?_eq_some_iff.1 waits)
  have queued := (afterCoherent.monitors.waitingFor_iff thread lock).1 afterFits.2.1
  rcases coherent.reasons_step running event thread _ waits with before | ⟨held, onLock⟩ | ⟨own, new⟩
  · refine .stays steps runs (earlier thread lock before) ?_ ?_ queued
    · rw [← Bool.not_eq_true, ThreadId.same_iff_lineage]
      intro same
      have blocked := RunStates.reason?_eq_some_iff.1 before
      rw [← state.threads.state?_congr same, running] at blocked
      cases blocked
    · rintro target rfl
      exact coherent.uninterrupted running before waits
  · cases onLock
  · obtain rfl := Event.eq_wait_of_reason? new
    exact .waits steps runs ((ThreadId.same_iff_lineage _ _).2 own.symm) queued

private theorem Driven.unsignalled {source : σ} {maxDecisions : Nat} {host : Host}
    {history : History}
    (driven : Driven source maxDecisions host history state) (thread : ThreadId) (lock : LockId)
    (waits : state.threads.reason? thread = some (.signal lock)) :
    Unsignalled ((fresh source maxDecisions).begin host).2 thread lock history state := by
  refine driven.preserves
    (P := fun history state => ∀ thread lock,
      state.threads.reason? thread = some (.signal lock) →
        Unsignalled ((fresh source maxDecisions).begin host).2 thread lock history state)
    ?_ ?_ thread lock waits
  · intro thread lock waits
    rw [RunStates.reason?_eq_some_iff, state?_begun] at waits
    split at waits <;> cases waits
  · intro history state actor event driven runs earlier
    exact Steps.unsignalled_step driven driven.coherent earlier runs event

/-! ## Reports -/

/-- Nothing came yet that the thread waits for. -/
def StillWaits (first state : Scheduler σ) (history : History) (stuck : List StuckThread)
    (thread : ThreadId) : BlockReason → Prop
  | .lock lock =>
      ∃ owner, state.monitors.owner? lock = some owner ∧ owner.same thread = false
  | .signal lock => Unsignalled first thread lock history state
  | .park =>
      state.permits.contains thread = false ∧ state.interrupted.contains thread = false
  | .join joinee =>
      state.isLive joinee = true ∧ ∃ entry ∈ stuck, entry.thread.same joinee = true

/-- The list names the live threads, each once and in the order of lineages, each with what it
waits for, which did not come, and with the place it passed last. -/
structure StuckReport (first state : Scheduler σ) (history : History)
    (stuck : List StuckThread) : Prop where
  ordered : stuck.Pairwise fun earlier later =>
    compare earlier.thread.lineage later.thread.lineage = .lt
  complete : ∀ thread, state.isLive thread = true ↔
    ∃ entry ∈ stuck, entry.thread.same thread = true
  reason : ∀ entry ∈ stuck, ∃ reason, entry.reason = some reason ∧
    state.threads.reason? entry.thread = some reason ∧
    StillWaits first state history stuck entry.thread reason
  lastSeen : ∀ entry ∈ stuck,
    entry.lastSeen = (history.lastSite entry.thread).map Site.text

/-- In a stuck state whatever a thread waits for did not come. -/
theorem Coherent.stillWaits (coherent : state.Coherent) (stuck : state.Stuck)
    {first : Scheduler σ} {history : History} {thread : ThreadId} {reason : BlockReason}
    (unsignalled : ∀ lock, reason = .signal lock →
      Unsignalled first thread lock history state)
    (waits : state.threads.reason? thread = some reason) :
    StillWaits first state history state.stuckThreads thread reason := by
  have fits := coherent.fits_of (RunStates.reason?_eq_some_iff.1 waits)
  cases reason with
  | lock lock => exact (coherent.agreement.lock thread lock waits).2
  | signal lock => exact unsignalled lock rfl
  | park => exact coherent.agreement.park thread waits
  | join joinee => exact ⟨fits.2.2.2, stuck.exists_mem fits.2.2.2⟩

/-- A stuck state is reported in full. -/
theorem Coherent.stuckReport (coherent : state.Coherent) (stuck : state.Stuck)
    {first : Scheduler σ} {history : History} (recorded : state.Recorded history)
    (unsignalled : ∀ thread lock, state.threads.reason? thread = some (.signal lock) →
      Unsignalled first thread lock history state) :
    StuckReport first state history state.stuckThreads where
  ordered := state.stuckThreads_ordered
  complete := by
    intro thread
    refine ⟨stuck.exists_mem, ?_⟩
    rintro ⟨entry, member, same⟩
    rw [← isLive_congr state ((ThreadId.same_iff_lineage _ _).1 same)]
    exact isLive_iff.2 ⟨_, (mem_stuckThreads member).1⟩
  reason := by
    intro entry member
    have blocked := (mem_stuckThreads member).1
    cases waits : entry.reason with
    | none =>
        rw [waits] at blocked
        exact False.elim (coherent.fits_of blocked)
    | some reason =>
        rw [waits] at blocked
        have reasons := RunStates.reason?_eq_some_iff.2 blocked
        refine ⟨reason, rfl, reasons, coherent.stillWaits stuck ?_ reasons⟩
        rintro lock rfl
        exact unsignalled entry.thread lock reasons
  lastSeen := by
    intro entry member
    obtain ⟨blocked, seen⟩ := mem_stuckThreads member
    have present : state.hasExited entry.thread = false := by
      rw [← Bool.not_eq_true]
      intro exited
      rw [coherent.finished entry.thread exited] at blocked
      cases blocked
    rw [seen, recorded.places entry.thread present]

/-- Sound and complete reports.  In a run the scheduler reports a stall after an event exactly
when somebody is live and nobody is running or runnable; it reports dangling threads if the root
reached its exit and a deadlock if it did not, with a list that is right about every live
thread.  A source that never answers with a stall is the cause of none.  And an execution is
over exactly when nobody is live. -/
theorem driven_stalls (source : σ) (maxDecisions : Nat) (host : Host) {history : History}
    (driven : Driven source maxDecisions host history state) (actor : ThreadId) (event : Event)
    {outcome : Outcome Reply} {after : Scheduler σ}
    (runs : state.threads.isRunning actor = true)
    (stepped : state.step actor event = (outcome, after)) :
    ((∃ fault, ReportsStall (state.roundsOf actor event) outcome fault) ↔ after.Stuck) ∧
      (∀ fault, ReportsStall (state.roundsOf actor event) outcome fault → ∃ stuck,
        fault = (if after.hasExited .root then .danglingThreads stuck else .deadlock stuck) ∧
        StuckReport ((fresh source maxDecisions).begin host).2 after
          (history ++ [(actor, event)]) stuck) ∧
      (NeverStalls σ → ∀ fault, outcome = .error (.fault fault) → fault.isStall = true →
        ReportsStall (state.roundsOf actor event) outcome fault) ∧
      (outcome = .ok (.schedule .quiescent) ↔ ∀ thread, after.isLive thread = false) := by
  have coherent := driven.coherent
  have running := RunStates.isRunning_iff.1 runs
  have verdict := coherent.verdict running event
  have afterCoherent := (coherent.reported running event).1
  have recorded := driven.recorded.step coherent running event
  have unsignalled := Steps.unsignalled_step driven coherent driven.unsignalled runs event
  rw [stepped] at verdict afterCoherent recorded unsignalled
  refine ⟨verdict.reportsStall_iff, ?_, ?_, verdict.quiescent_iff⟩
  · intro fault reports
    have stuck := verdict.reportsStall_iff.1 ⟨fault, reports⟩
    refine ⟨after.stuckThreads, ?_, afterCoherent.stuckReport stuck recorded unsignalled⟩
    rw [verdict.fault_eq reports, stallFault, recorded.root]
  · intro honest fault failed stall
    exact ⟨failed, stall, honest.not_declined stall⟩

/-- The root announces a child, passes a place, enters a lock and waits on it. -/
def awaitingRoot : History :=
  [(.root, .announce), (.root, .act (.yield ⟨"worker", 3, 1⟩)), (.root, .act (.enter ⟨7⟩)),
    (.root, .act (.wait ⟨7⟩ false))]

/-- The child parks, and the signal does not come. -/
theorem report_of_missing_signal :
    ∃ state stuck, Driven DepthFirst.start 4 0 awaitingRoot state ∧
      stuck = [⟨.root, some (.signal ⟨7⟩), some "worker:3:1"⟩,
        ⟨.child .root 0, some .park, none⟩] ∧
      (state.step (.child .root 0) (.act .park)).1 = .error (.fault (.deadlock stuck)) ∧
      StuckReport ((fresh DepthFirst.start 4).begin 0).2
        (state.step (.child .root 0) (.act .park)).2
        (awaitingRoot ++ [(.child .root 0, .act .park)]) stuck := by
  have driven : Driven DepthFirst.start 4 0 awaitingRoot (reach _ awaitingRoot) :=
    steps_iff_drive.2 (drive_eq_reach _ _ (by decide +kernel))
  obtain ⟨-, reports, own, -⟩ :=
    driven_stalls DepthFirst.start 4 0 driven (.child .root 0) (.act .park) (by decide +kernel) rfl
  have failed : ((reach ((fresh DepthFirst.start 4).begin 0).2 awaitingRoot).step
      (.child .root 0) (.act .park)).1 = .error (.fault (.deadlock
        [⟨.root, some (.signal ⟨7⟩), some "worker:3:1"⟩, ⟨.child .root 0, some .park, none⟩])) := by
    decide +kernel
  obtain ⟨stuck, equal, report⟩ := reports _ (own neverStalls_depthFirst _ failed rfl)
  rw [if_neg (by decide +kernel)] at equal
  cases equal
  exact ⟨_, _, driven, rfl, failed, report⟩

end Scheduler

end ScheduleSearch
