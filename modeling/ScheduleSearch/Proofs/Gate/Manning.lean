import ScheduleSearch.Proofs.Gate.Posts

/-!
# Manned executions

An execution is manned as long as the gate is ready, every host thread is at its post, and every
live thread has a host thread or is going to have one.  It stays manned when a host thread is
started, wakes up or looks again, and when the running thread reports an event, provided that
the ring which goes with the event reaches whoever has to wake up.
-/

namespace ScheduleSearch.GateSystem

variable {σ : Type} {system : GateSystem σ} {host : Host} {me : ThreadId}

/-- A host thread is to be started for the thread, or was started and has not called yet. -/
def Expected (system : GateSystem σ) (thread : ThreadId) : Prop :=
  system.coming.contains thread = true ∨
    ∃ host born, system.hosts host = .born born ∧ born.lineage = thread.lineage

/-- The gate is ready, every host thread is at its post, and every live thread has a host thread,
or is going to have one. -/
structure Manned (system : GateSystem σ) : Prop where
  ready : system.gate.Ready
  posted : ∀ host, system.gate.Posted host (system.hosts host)
  births : Births system.hosts system.coming system.gate.model
  staffed : ∀ thread, system.gate.model.isLive thread = true → system.Expected thread ∨
    ∃ host carried, system.gate.caller? host = some carried ∧ carried.lineage = thread.lineage

theorem manned_begun (source : σ) (maxDecisions : Nat) (host : Host) :
    (begun source maxDecisions host).Manned := by
  have carriers : ∀ other, (begun source maxDecisions host).gate.caller? other =
      if other = host then some .root else none :=
    Registry.threadOf?_bind Registry.empty host .root
  have runs := Scheduler.state?_begun source maxDecisions host
  constructor
  case ready => exact Gate.ready_begun source maxDecisions host
  case posted =>
    intro other
    change Gate.Posted _ other (Function.update (fun _ => Standing.unborn) host .executing other)
    by_cases here : other = host
    · rw [here, Function.update_self]
      exact ⟨.root, (carriers host).trans (if_pos rfl), (runs .root).trans (if_pos rfl)⟩
    · rw [Function.update_of_ne here]
      exact (carriers other).trans (if_neg here)
  case births =>
    have unborn : ∀ newborn thread,
        (begun source maxDecisions host).hosts newborn ≠ .born thread := by
      intro newborn thread isBorn
      change Function.update (fun _ => Standing.unborn) host .executing newborn = _ at isBorn
      by_cases here : newborn = host
      · rw [here, Function.update_self] at isBorn
        cases isBorn
      · rw [Function.update_of_ne here] at isBorn
        cases isBorn
    constructor
    · intro thread comes
      cases comes
    · intro newborn thread isBorn
      exact absurd isBorn (unborn newborn thread)
    · intro first second thread other firstBorn
      exact absurd firstBorn (unborn first thread)
  case staffed =>
    intro thread live
    obtain ⟨run, found⟩ := Scheduler.isLive_iff.1 live
    rw [show (begun source maxDecisions host).gate.model.threads.state? thread = _ from
      runs thread] at found
    split at found
    next same => exact Or.inr ⟨host, .root, (carriers host).trans (if_pos rfl), same.symm⟩
    next => cases found

private theorem update_eq_born {hosts : Host → Standing} {standing : Standing}
    (before : ∀ thread, hosts host ≠ .born thread) (behind : ∀ thread, standing ≠ .born thread)
    (newborn : Host) (thread : ThreadId) :
    Function.update hosts host standing newborn = .born thread ↔
      hosts newborn = .born thread := by
  by_cases here : newborn = host
  · rw [here, Function.update_self]
    exact ⟨fun isBorn => absurd isBorn (behind thread), fun isBorn => absurd isBorn (before thread)⟩
  · rw [Function.update_of_ne here]

private theorem Manned.repost (manned : system.Manned) {standing : Standing}
    (before : ∀ thread, system.hosts host ≠ .born thread)
    (behind : ∀ thread, standing ≠ .born thread) (posted : system.gate.Posted host standing) :
    (system.repost host standing).Manned := by
  have born := update_eq_born before behind
  constructor
  case ready => exact manned.ready
  case posted =>
    intro other
    by_cases here : other = host
    · rw [here, hosts_repost_self]
      exact posted
    · rw [hosts_repost_of_ne system standing here]
      exact manned.posted other
  case births =>
    apply manned.births.kept
    · exact fun newborn thread => (born newborn thread).1
    · exact fun _ _ live free => ⟨live, free⟩
  case staffed =>
    intro thread live
    rcases manned.staffed thread live with (comes | ⟨newborn, other, isBorn, same⟩) | carried
    · exact Or.inl (Or.inl comes)
    · exact Or.inl (Or.inr ⟨newborn, other, (born newborn other).2 isBorn, same⟩)
    · exact Or.inr carried

/-- A host thread is started for an announced thread. -/
theorem Manned.start (manned : system.Manned) {thread : ThreadId}
    (unborn : system.hosts host = .unborn) (comes : system.coming.contains thread = true) :
    Manned { system.repost host (.born thread) with coming := system.coming.erase thread } := by
  constructor
  case ready => exact manned.ready
  case posted =>
    intro other
    dsimp only
    by_cases here : other = host
    · have posted := manned.posted host
      rw [unborn] at posted
      rw [here, hosts_repost_self]
      exact posted
    · rw [hosts_repost_of_ne system _ here]
      exact manned.posted other
  case births => exact manned.births.start comes
  case staffed =>
    intro other live
    rcases manned.staffed other live with (before | ⟨newborn, born, isBorn, same⟩) | carried
    · left
      by_cases here : other.lineage = thread.lineage
      · exact Or.inr ⟨host, thread, hosts_repost_self system host _, here.symm⟩
      · exact Or.inl (KeySet.contains_erase.2 ⟨mt ThreadId.compare_eq_iff.1 here, before⟩)
    · refine Or.inl (Or.inr ⟨newborn, born, ?_, same⟩)
      dsimp only
      rw [hosts_repost_of_ne]
      · exact isBorn
      · rintro rfl
        rw [unborn] at isBorn
        cases isBorn
    · exact Or.inr carried

theorem Manned.wake (manned : system.Manned) {awaited : Awaited} {isRung : Bool}
    (asleep : system.hosts host = .asleep awaited isRung) :
    (system.repost host (.awake awaited)).Manned := by
  have posted := manned.posted host
  rw [asleep] at posted
  refine manned.repost ?_ (Standing.ne_born rfl) ?_
  · rw [asleep]
    exact Standing.ne_born rfl
  · cases awaited with
    | turn thread => exact posted.1
    | quiescence => exact posted.1

/-- A host thread that looks again goes on if it may, and otherwise has nothing to miss. -/
theorem Manned.look (manned : system.Manned) {awaited : Awaited}
    (awake : system.hosts host = .awake awaited) :
    (system.repost host
      ((system.gate.look awaited).standing awaited.standing awaited)).Manned := by
  have posted := manned.posted host
  rw [awake] at posted
  have notBorn : ∀ thread, system.hosts host ≠ .born thread := by
    rw [awake]
    exact Standing.ne_born rfl
  cases awaited with
  | turn thread =>
      rw [Gate.look_turn_of_unfailed manned.ready.unfailed]
      split
      next runs =>
        exact manned.repost notBorn (Standing.ne_born rfl)
          ⟨thread, posted, RunStates.isRunning_iff.1 runs⟩
      next waits =>
        exact manned.repost notBorn (Standing.ne_born rfl)
          ⟨posted, fun _ runs => waits (RunStates.isRunning_iff.2 runs)⟩
  | quiescence =>
      rw [Gate.look, Gate.awaitEnd_of_unfailed manned.ready.unfailed]
      split
      next quiescent => exact manned.repost notBorn (Standing.ne_born rfl) posted
      next live =>
        exact manned.repost notBorn (Standing.ne_born rfl)
          ⟨posted, fun _ => eq_false_of_ne_true live⟩

/-- Whoever has to wake up was rung for: nobody but `host` sleeps on for the turn of a thread that
runs, and nobody sleeps on until an end that has come. -/
structure Alerted (model : Scheduler σ) (host : Host) (hosts : Host → Standing) : Prop where
  turn : ∀ other thread, other ≠ host → hosts other = .asleep (.turn thread) false →
    model.threads.state? thread ≠ some .running
  told : ∀ other, hosts other = .asleep .quiescence false → model.isQuiescent = false

/-- Whoever executes test code carries the running thread. -/
theorem Manned.executing (manned : system.Manned) (executes : system.hosts host = .executing) :
    ∃ thread, system.gate.caller? host = some thread ∧
      system.gate.model.threads.state? thread = some .running := by
  have posted := manned.posted host
  rw [executes] at posted
  exact posted

theorem Manned.executing_unique (manned : system.Manned) {first second : Host}
    (firstExecutes : system.hosts first = .executing)
    (secondExecutes : system.hosts second = .executing) : first = second := by
  obtain ⟨thread, firstCarries, firstRuns⟩ := manned.executing firstExecutes
  obtain ⟨other, secondCarries, secondRuns⟩ := manned.executing secondExecutes
  exact manned.ready.carrier_unique firstCarries secondCarries
    (manned.ready.coherent.single thread other firstRuns secondRuns)

/-- Nobody but its host thread waits for the turn of a thread. -/
theorem Manned.waits_alone (manned : system.Manned) {other : Host} {thread : ThreadId}
    {isRung : Bool} (waits : system.hosts other = .asleep (.turn thread) isRung)
    (carries : system.gate.caller? host = some me) (same : thread.lineage = me.lineage) :
    other = host := by
  have posted := manned.posted other
  rw [waits] at posted
  exact manned.ready.carrier_unique posted.1 carries same

variable [DecisionSource σ]

/-- After an event of the running thread every host thread is at its post again, if the ring that
goes with the event reaches whoever has to wake up. -/
theorem Manned.of_event (manned : system.Manned) (executes : system.hosts host = .executing)
    (carries : system.gate.caller? host = some me)
    (runs : system.gate.model.threads.state? me = some .running) {event : Event}
    (notBirth : ∀ host, event ≠ .bind host) {gate : Gate σ} {hosts : Host → Standing}
    {bells : KeySet ThreadId} {ring : Ring} {standing : Standing} {coming : KeySet ThreadId}
    (ready : gate.Ready) (model : gate.model = (system.gate.model.step me event).2)
    (rings : Rings bells system.hosts ring hosts)
    (alerted : Alerted gate.model host hosts) (posted : gate.Posted host standing)
    (births : Births (Function.update hosts host standing) coming gate.model)
    (comers : ∀ thread, system.coming.contains thread = true → coming.contains thread = true)
    (lives : ∀ thread, gate.model.isLive thread = true → coming.contains thread = true ∨
      (system.gate.model.isLive thread = true ∧
        (thread.lineage = me.lineage → gate.caller? host = some me))) :
    Manned
      { gate := gate, hosts := Function.update hosts host standing, coming := coming } := by
  have callers : ∀ other, other ≠ host →
      gate.caller? other = system.gate.caller? other := by
    intro other different
    rw [Gate.caller?, model]
    exact manned.ready.caller?_other carries runs notBirth different
  constructor
  case ready => exact ready
  case posted =>
    intro other
    dsimp only
    by_cases here : other = host
    · rw [here, Function.update_self]
      exact posted
    · rw [Function.update_of_ne here]
      have before : system.gate.Posted other (hosts other) := by
        rcases rings.cases_host other with same | rung
        · rw [same]
          exact manned.posted other
        · rw [rung]
          exact (manned.posted other).rung
      apply before.kept (callers other here)
      · intro alsoExecutes
        rw [alsoExecutes] at before
        obtain ⟨thread, alsoCarries, alsoRuns⟩ := before
        exact here (manned.ready.carrier_unique alsoCarries carries
          (manned.ready.coherent.single thread me alsoRuns runs))
      · exact fun thread => alerted.turn other thread here
      · exact alerted.told other
  case births => exact births
  case staffed =>
    intro thread live
    rcases lives thread live with comes | ⟨lived, stays⟩
    · exact Or.inl (Or.inl comes)
    · rcases manned.staffed thread lived with (comes | ⟨newborn, born, isBorn, same⟩) | staffed
      · exact Or.inl (Or.inl (comers thread comes))
      · refine Or.inl (Or.inr ⟨newborn, born, ?_, same⟩)
        dsimp only
        rw [Function.update_of_ne]
        · exact (rings.born_iff newborn born).2 isBorn
        · rintro rfl
          rw [executes] at isBorn
          cases isBorn
      · obtain ⟨carrier, carried, found, same⟩ := staffed
        by_cases here : carrier = host
        · obtain rfl : me = carried := by
            rw [here, carries] at found
            exact Option.some.inj found
          exact Or.inr ⟨host, me, stays same.symm, same⟩
        · exact Or.inr ⟨carrier, carried, (callers carrier here).trans found, same⟩

omit [DecisionSource σ] in
/-- As long as the calling thread runs nobody else has to wake up. -/
theorem Manned.alerted_of_running (manned : system.Manned)
    (carries : system.gate.caller? host = some me) {model : Scheduler σ}
    (coherent : model.Coherent) (runs : model.threads.state? me = some .running)
    {bells : KeySet ThreadId} {ring : Ring} {hosts : Host → Standing}
    (rings : Rings bells system.hosts ring hosts) : Alerted model host hosts := by
  constructor
  · intro other thread different asleep alsoRuns
    have before := rings.asleep_of_unrung asleep
    exact different (manned.waits_alone before carries (coherent.single thread me alsoRuns runs))
  · intro other asleep
    rw [← Bool.not_eq_true]
    intro quiescent
    rw [RunStates.isEmpty_iff.1 quiescent me] at runs
    cases runs

omit [DecisionSource σ] in
/-- The ring that goes with a schedule reaches whoever has to wake up. -/
theorem Manned.alerted_of_schedule (manned : system.Manned)
    (carries : system.gate.caller? host = some me) {gate : Gate σ} (ready : gate.Ready)
    {schedule : Schedule}
    (reported : Scheduler.Reported me (.ok (.schedule schedule), gate.model))
    {hosts : Host → Standing} {bells : KeySet ThreadId}
    (rings : Rings bells system.hosts (gate.ringFor schedule) hosts) :
    Alerted gate.model host hosts := by
  match schedule with
  | .goOn => exact manned.alerted_of_running carries ready.coherent reported.2 rings
  | .quiescent =>
      constructor
      · intro other thread different asleep runs
        rw [reported.2 thread] at runs
        cases runs
      · intro other asleep
        exact absurd asleep (rings.told_of_idle other)
  | .resume next =>
      have runs : gate.model.threads.state? next = some .running := reported.2
      have bell := ready.belled next (Scheduler.isLive_iff.2 ⟨_, runs⟩)
      rw [Gate.ringFor, if_pos bell] at rings
      constructor
      · intro other thread different asleep alsoRuns
        have same := ready.coherent.single thread next alsoRuns runs
        refine rings.roused_of_thread ?_ same asleep
        intro first second firstSleeps secondSleeps
        obtain ⟨one, firstAsleep, firstSame⟩ := Standing.sleepsFor_iff.1 firstSleeps
        obtain ⟨two, secondAsleep, secondSame⟩ := Standing.sleepsFor_iff.1 secondSleeps
        have posted := manned.posted second
        rw [secondAsleep] at posted
        exact manned.waits_alone firstAsleep posted.1 (firstSame.trans secondSame.symm)
      · intro other asleep
        rw [← Bool.not_eq_true]
        intro quiescent
        rw [RunStates.isEmpty_iff.1 quiescent next] at runs
        cases runs

/-- An event that brings no thread: whoever is to come is still to come. -/
theorem Manned.of_plain_event (manned : system.Manned)
    (executes : system.hosts host = .executing) (carries : system.gate.caller? host = some me)
    (runs : system.gate.model.threads.state? me = some .running) {event : Event}
    (notBirth : ∀ host, event ≠ .bind host) (plain : event ≠ .announce) {gate : Gate σ}
    {hosts : Host → Standing} {bells : KeySet ThreadId} {ring : Ring} {standing : Standing}
    (ready : gate.Ready) (model : gate.model = (system.gate.model.step me event).2)
    (rings : Rings bells system.hosts ring hosts)
    (alerted : Alerted gate.model host hosts) (posted : gate.Posted host standing)
    (behind : ∀ thread, standing ≠ .born thread) :
    Manned
      { gate := gate
        hosts := Function.update hosts host standing
        coming := system.coming } := by
  have before : ∀ thread, hosts host ≠ .born thread := by
    intro thread isBorn
    rw [rings.born_iff, executes] at isBorn
    cases isBorn
  refine manned.of_event executes carries runs notBirth ready model rings alerted posted
    ?_ (fun _ => id) ?_
  · apply manned.births.kept
    · intro newborn thread isBorn
      exact (rings.born_iff newborn thread).1 ((update_eq_born before behind _ _).1 isBorn)
    · intro thread _ live free
      rw [model]
      exact manned.ready.free_reported carries runs notBirth live free
  · intro thread live
    rw [model, Scheduler.isLive_step (manned.ready.live carries)] at live
    by_cases exits : event = .exit
    · subst exits
      exact Or.inr ⟨live.2, fun same => absurd same live.1⟩
    · right
      have caller : gate.caller? host = some me := by
        rw [Gate.caller?, model]
        exact (manned.ready.caller?_reported runs notBirth exits host).trans carries
      match event with
      | .announce => exact absurd rfl plain
      | .bind other => exact absurd rfl (notBirth other)
      | .exit => exact absurd rfl exits
      | .choose => exact ⟨live, fun _ => caller⟩
      | .readInterrupt clear => exact ⟨live, fun _ => caller⟩
      | .act action => exact ⟨live, fun _ => caller⟩

end ScheduleSearch.GateSystem
