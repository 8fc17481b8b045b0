import ScheduleSearch.Decision.Script
import ScheduleSearch.Proofs.Gate.Manning

/-!
# One host thread at a time

Host threads that keep to the protocol call the gate only between a call that returned and the
next one, and the first call of a host thread that was started for a thread is to carry it.  As
long as the execution has not failed, it is then manned: whoever executes test code carries the
running thread, so that at most one does, and the running thread has a host thread that is awake,
or rung for, or still to come, so that no wake-up is lost.
-/

namespace ScheduleSearch.GateSystem

/-- Host threads keep to the protocol: they call only after a call that returned, and the first
call of one that was started for a thread, and no other, is to carry that thread. -/
def Orderly {σ : Type} (system : GateSystem σ) : Incident → Prop
  | .call host call _ =>
      match system.hosts host with
      | .executing | .gone => ∀ thread, call ≠ .started thread
      | .born thread => call = .started thread
      | _ => False
  | _ => True

variable {σ : Type} [DecisionSource σ] {system after : GateSystem σ} {host : Host} {me : ThreadId}
  {hosts : Host → Standing}

private theorem Manned.announce (manned : system.Manned) (executes : system.hosts host = .executing)
    (carries : system.gate.caller? host = some me)
    (runs : system.gate.model.threads.state? me = some .running)
    (rings : Rings (system.gate.call host .announce).gate.bells system.hosts
      (system.gate.call host .announce).ring hosts) :
    (system.called host .announce hosts).Manned := by
  have ready := manned.ready
  have live := ready.live carries
  have served : system.gate.call host .announce = _ :=
    congrArg (Served.map GateReply.thread) (ready.announce carries)
  unfold called
  rw [served] at rings ⊢
  obtain ⟨coherent, stillRuns⟩ := ready.coherent.reported runs .announce
  have stepped : (system.gate.model.step me .announce).1 =
      .ok (.announced (.child me (system.gate.model.nextNumber me))) := by
    rw [Scheduler.step_announce, Scheduler.ifLive, if_pos live, Scheduler.announce_eq]
    rfl
  rw [stepped] at stillRuns
  have notBirth : ∀ host, Event.announce ≠ .bind host := by simp
  have afterReady := ready.ready_reported carries runs notBirth
  have alerted := manned.alerted_of_running carries coherent stillRuns rings
  have caller := (ready.caller?_reported runs notBirth (by simp) host).trans carries
  have unknown := ready.coherent.child_unknown live
    (rfl : (ThreadId.child me (system.gate.model.nextNumber me)).lineage = _)
  have childLive : (system.gate.model.step me .announce).2.isLive
      (.child me (system.gate.model.nextNumber me)) = true :=
    (Scheduler.isLive_step live .announce _).2 (Or.inl rfl)
  have childFree : (system.gate.model.step me .announce).2.registry.hostOf?
      (.child me (system.gate.model.nextNumber me)) = none := by
    rw [Gate.registry_reported ready runs .announce]
    cases carrier : system.gate.model.registry.hostOf?
        (.child me (system.gate.model.nextNumber me)) with
    | none => exact carrier
    | some other =>
        exact absurd (Or.inl (ready.carried _ (Table.contains_iff.2 ⟨other, carrier⟩))) unknown
  have born : ∀ newborn thread, Function.update hosts host .executing newborn = .born thread →
      system.hosts newborn = .born thread := by
    intro newborn thread isBorn
    by_cases here : newborn = host
    · rw [here, Function.update_self] at isBorn
      cases isBorn
    · rw [Function.update_of_ne here] at isBorn
      exact (rings.born_iff newborn thread).1 isBorn
  have births : Births (Function.update hosts host .executing) system.coming
      (system.gate.model.step me .announce).2 := by
    apply manned.births.kept born
    intro thread _ threadLive free
    exact ready.free_reported carries runs notBirth threadLive free
  refine manned.of_event executes carries runs notBirth afterReady rfl rings alerted
    ⟨me, caller, stillRuns⟩ (births.announced ?_ childLive childFree) ?_ ?_
  · intro newborn thread isBorn same
    have bornLive := (manned.births.born newborn thread (born newborn thread isBorn)).1
    rw [Scheduler.isLive_congr _ same] at bornLive
    exact unknown (Or.inl bornLive)
  · intro thread comes
    exact KeySet.contains_add.2 (Or.inr comes)
  · intro thread isLive
    rcases (Scheduler.isLive_step live .announce thread).1 isLive with same | before
    · exact Or.inl (KeySet.contains_add.2 (Or.inl (ThreadId.compare_eq_iff.2 same)))
    · exact Or.inr ⟨before, fun _ => caller⟩

private theorem Manned.act (manned : system.Manned) (executes : system.hosts host = .executing)
    (carries : system.gate.caller? host = some me)
    (runs : system.gate.model.threads.state? me = some .running) {action : Action}
    (passed : (system.gate.call host (.act action)).gate.failure = none)
    (rings : Rings (system.gate.call host (.act action)).gate.bells system.hosts
      (system.gate.call host (.act action)).ring hosts) :
    (system.called host (.act action) hosts).Manned := by
  have ready := manned.ready
  obtain ⟨schedule, stepped, acted⟩ := ready.act carries runs passed
  have served : system.gate.call host (.act action) = _ :=
    congrArg (Served.map fun _ => GateReply.done) acted
  unfold called
  rw [served] at rings ⊢
  have notBirth : ∀ host, Event.act action ≠ .bind host := by simp
  have afterReady := ready.ready_reported carries runs notBirth
  have reported := ready.coherent.reported runs (.act action)
  have caller := (ready.caller?_reported runs notBirth (by simp) host).trans carries
  have alerted := manned.alerted_of_schedule carries afterReady
    ⟨reported.1, stepped ▸ reported.2⟩ rings
  have awaited : system.gate.awaited host (.act action) = .turn me :=
    congrArg (fun caller : Option ThreadId => Awaited.turn (caller.getD .root)) carries
  rw [awaited]
  change Manned ⟨_, Function.update hosts host
    (Answer.standing _ _ (Answer.map _ (Gate.look _ (.turn me)))), _⟩
  rw [Gate.look_turn_of_unfailed afterReady.unfailed]
  split
  next goesOn =>
    exact manned.of_plain_event executes carries runs notBirth (by simp) afterReady rfl rings
      alerted ⟨me, caller, RunStates.isRunning_iff.1 goesOn⟩ (Standing.ne_born rfl)
  next waits =>
    exact manned.of_plain_event executes carries runs notBirth (by simp) afterReady rfl rings
      alerted ⟨caller, fun _ stillRuns => waits (RunStates.isRunning_iff.2 stillRuns)⟩
      (Standing.ne_born rfl)

/-- An exit leaves the host thread without a thread. -/
theorem Manned.exit (manned : system.Manned) (executes : system.hosts host = .executing)
    (carries : system.gate.caller? host = some me)
    (runs : system.gate.model.threads.state? me = some .running)
    (passed : (system.gate.call host .exit).gate.failure = none)
    (rings : Rings (system.gate.call host .exit).gate.bells system.hosts
      (system.gate.call host .exit).ring hosts) :
    (system.called host .exit hosts).Manned := by
  have ready := manned.ready
  obtain ⟨schedule, stepped, exited⟩ := ready.exit carries runs passed
  have served : system.gate.call host .exit = _ :=
    congrArg (Served.map fun _ => GateReply.done) exited
  unfold called
  rw [served] at rings ⊢
  have notBirth : ∀ host, Event.exit ≠ .bind host := by simp
  have afterReady := ready.ready_reported carries runs notBirth
  have reported := ready.coherent.reported runs .exit
  have alerted := manned.alerted_of_schedule carries afterReady
    ⟨reported.1, stepped ▸ reported.2⟩ rings
  have caller := (ready.caller?_exit carries runs host).trans (if_pos rfl)
  exact manned.of_plain_event executes carries runs notBirth (by simp) afterReady rfl rings
    alerted caller (Standing.ne_born rfl)

/-- To finish is to exit, and to wait for the end if the end has not come. -/
theorem Manned.finish (manned : system.Manned) (executes : system.hosts host = .executing)
    (carries : system.gate.caller? host = some me)
    (runs : system.gate.model.threads.state? me = some .running)
    (passed : (system.gate.call host .finish).gate.failure = none)
    (rings : Rings (system.gate.call host .finish).gate.bells system.hosts
      (system.gate.call host .finish).ring hosts) :
    (system.called host .finish hosts).Manned := by
  have ready := manned.ready
  obtain ⟨schedule, stepped, finished⟩ := ready.finish carries runs passed
  have served : system.gate.call host .finish = _ :=
    congrArg (Served.map fun _ => GateReply.done) finished
  unfold called
  rw [served] at rings ⊢
  have notBirth : ∀ host, Event.exit ≠ .bind host := by simp
  have afterReady := ready.ready_reported carries runs notBirth
  have reported := ready.coherent.reported runs .exit
  have alerted := manned.alerted_of_schedule carries afterReady
    ⟨reported.1, stepped ▸ reported.2⟩ rings
  have caller := (ready.caller?_exit carries runs host).trans (if_pos rfl)
  change Manned ⟨_, Function.update hosts host
    (Answer.standing _ .quiescence (Answer.map _ (Gate.awaitEnd _))), _⟩
  rw [Gate.awaitEnd_of_unfailed afterReady.unfailed]
  split
  next quiescent =>
    exact manned.of_plain_event executes carries runs notBirth (by simp) afterReady rfl rings
      alerted caller (Standing.ne_born rfl)
  next live =>
    exact manned.of_plain_event executes carries runs notBirth (by simp) afterReady rfl rings
      alerted ⟨caller, fun _ => eq_false_of_ne_true live⟩ (Standing.ne_born rfl)

private theorem Manned.readInterrupt (manned : system.Manned)
    (executes : system.hosts host = .executing) (carries : system.gate.caller? host = some me)
    (runs : system.gate.model.threads.state? me = some .running) {clear : Bool}
    (rings : Rings (system.gate.call host (.readInterrupt clear)).gate.bells system.hosts
      (system.gate.call host (.readInterrupt clear)).ring hosts) :
    (system.called host (.readInterrupt clear) hosts).Manned := by
  have ready := manned.ready
  have served : system.gate.call host (.readInterrupt clear) = _ :=
    congrArg (Served.map GateReply.flag) (ready.readInterrupt carries clear)
  unfold called
  rw [served] at rings ⊢
  have notBirth : ∀ host, Event.readInterrupt clear ≠ .bind host := by simp
  have afterReady := ready.ready_reported carries runs notBirth
  have stepped : (system.gate.model.step me (.readInterrupt clear)).1 =
      .ok (.flag (system.gate.model.interrupted.contains me)) := by
    rw [Scheduler.step, Scheduler.ifLive, if_pos (ready.live carries)]
    rfl
  obtain ⟨coherent, stillRuns⟩ := ready.coherent.reported runs (.readInterrupt clear)
  rw [stepped] at stillRuns
  have alerted := manned.alerted_of_running carries coherent stillRuns rings
  have caller := (ready.caller?_reported runs notBirth (by simp) host).trans carries
  exact manned.of_plain_event executes carries runs notBirth (by simp) afterReady rfl rings
    alerted ⟨me, caller, stillRuns⟩ (Standing.ne_born rfl)

omit [DecisionSource σ] in
private theorem Manned.same_hosts (manned : system.Manned)
    (executes : system.hosts host = .executing) :
    Manned
      { gate := system.gate
        hosts := Function.update system.hosts host .executing
        coming := system.coming } := by
  rw [← executes, Function.update_eq_self]
  exact manned

/-- A host thread that was started for a thread carries it from now on. -/
theorem Manned.carry (manned : system.Manned) {thread : ThreadId}
    (isBorn : system.hosts host = .born thread) {standing : Standing}
    (posted : (system.gate.reported thread (.bind host)).Posted host standing)
    (behind : ∀ thread, standing ≠ .born thread) :
    Manned
      { gate := system.gate.reported thread (.bind host)
        hosts := Function.update system.hosts host standing
        coming := system.coming } := by
  obtain ⟨live, free, notComing⟩ := manned.births.born host thread isBorn
  have afterReady := manned.ready.ready_started live free host
  rw [Gate.reported_bind live] at posted afterReady ⊢
  have carriers := Registry.threadOf?_bind system.gate.model.registry host thread
  have born : ∀ newborn other, Function.update system.hosts host standing newborn = .born other →
      newborn ≠ host ∧ system.hosts newborn = .born other := by
    intro newborn other stillBorn
    by_cases here : newborn = host
    · rw [here, Function.update_self] at stillBorn
      exact absurd stillBorn (behind other)
    · rw [Function.update_of_ne here] at stillBorn
      exact ⟨here, stillBorn⟩
  constructor
  case ready => exact afterReady
  case posted =>
    intro other
    dsimp only
    by_cases here : other = host
    · rw [here, Function.update_self]
      exact posted
    · rw [Function.update_of_ne here]
      have caller := (carriers other).trans (if_neg here)
      have before := manned.posted other
      by_cases executes : system.hosts other = .executing
      · rw [executes] at before ⊢
        obtain ⟨carried, carries, runs⟩ := before
        exact ⟨carried, caller.trans carries, runs⟩
      · apply before.kept
        · exact caller
        · exact executes
        · intro awaited asleep
          rw [asleep] at before
          exact before.2 rfl
        · intro asleep
          rw [asleep] at before
          exact before.2 rfl
  case births =>
    apply manned.births.kept
    · exact fun newborn other stillBorn => (born newborn other stillBorn).2
    · intro other expected otherLive otherFree
      refine ⟨otherLive, (Registry.hostOf?_bind _ host thread other).trans ?_⟩
      rw [if_neg]
      · exact otherFree
      · intro same
        rcases expected with comes | ⟨newborn, stillBorn⟩
        · rw [Scheduler.contains_congr same, notComing] at comes
          cases comes
        · obtain ⟨different, alsoBorn⟩ := born newborn other stillBorn
          exact different
            (manned.births.single newborn host other thread alsoBorn isBorn same)
  case staffed =>
    intro other otherLive
    rcases manned.staffed other otherLive with (comes | ⟨newborn, expected, alsoBorn, same⟩) |
      ⟨carrier, carried, found, same⟩
    · exact Or.inl (Or.inl comes)
    · by_cases here : newborn = host
      · rw [here, isBorn] at alsoBorn
        cases alsoBorn
        exact Or.inr ⟨host, thread, (carriers host).trans (if_pos rfl), same⟩
      · refine Or.inl (Or.inr ⟨newborn, expected, ?_, same⟩)
        dsimp only
        rw [Function.update_of_ne here]
        exact alsoBorn
    · refine Or.inr ⟨carrier, carried, (carriers carrier).trans ((if_neg ?_).trans found), same⟩
      rintro rfl
      have posted := manned.posted carrier
      rw [isBorn] at posted
      rw [show system.gate.caller? carrier = none from posted] at found
      cases found

private theorem Manned.started (manned : system.Manned) {thread : ThreadId}
    (isBorn : system.hosts host = .born thread)
    (rings : Rings (system.gate.call host (.started thread)).gate.bells system.hosts
      (system.gate.call host (.started thread)).ring hosts) :
    (system.called host (.started thread) hosts).Manned := by
  obtain ⟨live, free, -⟩ := manned.births.born host thread isBorn
  have served : system.gate.call host (.started thread) = _ :=
    congrArg (Served.map fun _ => GateReply.done) (manned.ready.started live host)
  have afterReady := manned.ready.ready_started live free host
  have carries : (system.gate.reported thread (.bind host)).caller? host = some thread := by
    rw [Gate.reported_bind live]
    exact (Registry.threadOf?_bind _ host thread host).trans (if_pos rfl)
  unfold called
  rw [served] at rings ⊢
  cases rings
  change Manned ⟨_, Function.update system.hosts host
    (Answer.standing _ (.turn thread) (Answer.map _ (Gate.look _ (.turn thread)))), _⟩
  rw [Gate.look_turn_of_unfailed afterReady.unfailed]
  split
  next goesOn =>
    exact manned.carry isBorn ⟨thread, carries, RunStates.isRunning_iff.1 goesOn⟩
      (Standing.ne_born rfl)
  next waits =>
    exact manned.carry isBorn
      ⟨carries, fun _ runs => waits (RunStates.isRunning_iff.2 runs)⟩
      (Standing.ne_born rfl)

/-- Calls that keep to the protocol and do not fail the execution leave it manned. -/
theorem Manned.call (manned : system.Manned) {call : GateCall} {answer : Answer GateReply}
    (orderly : system.Orderly (.call host call answer))
    (passed : (system.gate.call host call).gate.failure = none)
    (rings : Rings (system.gate.call host call).gate.bells system.hosts
      (system.gate.call host call).ring hosts) :
    (system.called host call hosts).Manned := by
  have stranger : system.gate.caller? host = none → ∃ thread, call = .started thread := by
    intro idle
    by_contra notBirth
    exact Gate.failed_of_stranger manned.ready.unfailed idle
      (fun thread same => notBirth ⟨thread, same⟩) passed
  have posted := manned.posted host
  unfold Orderly at orderly
  dsimp only at orderly
  cases stands : system.hosts host with
  | unborn => rw [stands] at orderly; exact False.elim orderly
  | asleep awaited isRung => rw [stands] at orderly; exact False.elim orderly
  | awake awaited => rw [stands] at orderly; exact False.elim orderly
  | failed => rw [stands] at orderly; exact False.elim orderly
  | gone =>
      rw [stands] at orderly posted
      obtain ⟨thread, birth⟩ := stranger posted
      exact absurd birth (orderly thread)
  | born thread =>
      rw [stands] at orderly
      obtain rfl : call = .started thread := orderly
      exact manned.started stands rings
  | executing =>
      rw [stands] at orderly
      obtain ⟨me, carries, runs⟩ := manned.executing stands
      match call with
      | .announce => exact manned.announce stands carries runs rings
      | .started thread => exact absurd rfl (orderly thread)
      | .exit => exact manned.exit stands carries runs passed rings
      | .act action => exact manned.act stands carries runs passed rings
      | .readInterrupt clear => exact manned.readInterrupt stands carries runs rings
      | .current =>
          have served : system.gate.call host .current = _ :=
            congrArg (Served.map GateReply.thread) (Gate.current_of_caller carries)
          unfold called
          rw [served] at rings ⊢
          cases rings
          exact manned.same_hosts stands
      | .abort fault => cases passed
      | .finish => exact manned.finish stands carries runs passed rings

/-! ## Runs -/

/-- Incidents that keep to the protocol and do not fail the execution leave it manned. -/
theorem Manned.step {incident : Incident} (manned : system.Manned)
    (orderly : system.Orderly incident) (stepped : Step system incident after)
    (passed : after.gate.failure = none) : after.Manned := by
  cases stepped with
  | start unborn comes => exact manned.start unborn comes
  | call outside rings => exact manned.call orderly passed rings
  | wake asleep => exact manned.wake asleep
  | look awake => exact manned.look awake

private theorem Run.manned {source : σ} {maxDecisions : Nat} {incidents : List Incident}
    (run : Run Orderly (begun source maxDecisions host) incidents system)
    (unfailed : system.gate.failure = none) : system.Manned := by
  induction run with
  | refl => exact manned_begun source maxDecisions host
  | step run stepped orderly inductionHypothesis =>
      exact (inductionHypothesis (stepped.unfailed unfailed)).step orderly stepped unfailed

/-- The thread has a host thread that executes test code, or woke up and is going to look, or
was rung for; or its host thread is still to come. -/
def Attended (system : GateSystem σ) (thread : ThreadId) : Prop :=
  system.Expected thread ∨ ∃ host carried,
    system.gate.model.registry.hostOf? thread = some host ∧ carried.lineage = thread.lineage ∧
      (system.hosts host = .executing ∨ system.hosts host = .awake (.turn carried) ∨
        system.hosts host = .asleep (.turn carried) true)

omit [DecisionSource σ] in
private theorem Manned.attended (manned : system.Manned) {thread : ThreadId}
    (runs : system.gate.model.threads.state? thread = some .running) :
    system.Attended thread := by
  rcases manned.staffed thread (Scheduler.isLive_iff.2 ⟨_, runs⟩) with expected |
    ⟨carrier, carried, carries, same⟩
  · exact Or.inl expected
  · have found := manned.ready.matched carrier carried carries
    rw [Registry.hostOf?_congr _ same] at found
    refine Or.inr ⟨carrier, carried, found, same, ?_⟩
    have posted := manned.posted carrier
    rcases posted.cases_caller carries with executes | ⟨isRung, asleep⟩ | awake
    · exact Or.inl executes
    · rw [asleep] at posted
      cases isRung with
      | true => exact Or.inr (Or.inr asleep)
      | false =>
          apply absurd ((RunStates.state?_congr _ same).trans runs)
          exact posted.2 rfl
    · exact Or.inr (Or.inl awake)

/-- In every execution in which host threads keep to the protocol, and as long as it has not
failed: a host thread that executes test code carries the running thread, so that no two do; the
running thread has a host thread that goes on or is going to look whether it may, or one is still
to come; nobody sleeps for the turn of the running thread without having been rung for; and once
no thread is live nobody sleeps until the end without having been told. -/
theorem orderly_turns (source : σ) (maxDecisions : Nat) (root : Host) {incidents : List Incident}
    (run : Run Orderly (begun source maxDecisions root) incidents system)
    (unfailed : system.gate.failure = none) :
    (∀ host, system.hosts host = .executing → ∃ thread,
      system.gate.caller? host = some thread ∧
        system.gate.model.registry.hostOf? thread = some host ∧
          system.gate.model.threads.isRunning thread = true) ∧
    (∀ first second, system.hosts first = .executing → system.hosts second = .executing →
      first = second) ∧
    (∀ thread, system.gate.model.threads.isRunning thread = true → system.Attended thread) ∧
    (∀ host thread, system.hosts host = .asleep (.turn thread) false →
      system.gate.model.threads.isRunning thread = false) ∧
    (system.gate.model.isQuiescent = true →
      ∀ host, system.hosts host ≠ .asleep .quiescence false) := by
  have manned := run.manned unfailed
  refine ⟨?_, ?_, ?_, ?_, ?_⟩
  · intro host executes
    obtain ⟨thread, carries, runs⟩ := manned.executing executes
    exact ⟨thread, carries, manned.ready.matched host thread carries,
      RunStates.isRunning_iff.2 runs⟩
  · exact fun first second => manned.executing_unique
  · exact fun thread runs => manned.attended (RunStates.isRunning_iff.1 runs)
  · intro host thread asleep
    have posted := manned.posted host
    rw [asleep] at posted
    exact eq_false_of_ne_true (mt RunStates.isRunning_iff.1 (posted.2 rfl))
  · intro quiescent host asleep
    have posted := manned.posted host
    rw [asleep] at posted
    rw [posted.2 rfl] at quiescent
    cases quiescent

/-- The root waits for the end while the host thread of its child, which runs, has been rung for;
and once the child has reached its exit too, the root has been told. -/
theorem turns_of_root_and_child :
    ∃ incidents waiting more ended,
      Run Orderly (begun (Script.ofAnswers []) 4 0) incidents waiting ∧
      Run Orderly (begun (Script.ofAnswers []) 4 0) more ended ∧
      waiting.hosts 0 = .asleep .quiescence false ∧
      waiting.hosts 1 = .asleep (.turn (.child .root 0)) true ∧
      waiting.Attended (.child .root 0) ∧
      ended.gate.model.isQuiescent = true ∧ ended.hosts 0 ≠ .asleep .quiescence false := by
  have start : Run Orderly (begun (Script.ofAnswers []) 4 0) [] _ := .refl
  have announced := start.step (@Step.call _ _ _ 0 .announce _ rfl .nobody) nofun
  have started := announced.step (@Step.start _ _ _ 1 (.child .root 0) rfl rfl) trivial
  have asleep := started.step (@Step.call _ _ _ 1 (.started (.child .root 0)) _ rfl .nobody) rfl
  have waiting := asleep.step (@Step.call _ _ _ 0 .finish _ rfl (.heard 1 rfl)) nofun
  have awake := waiting.step (@Step.wake _ _ _ 1 (.turn (.child .root 0)) true rfl) trivial
  have running := awake.step (@Step.look _ _ _ 1 _ rfl) trivial
  have ended := running.step (@Step.call _ _ _ 1 .exit _ rfl .idle) nofun
  obtain ⟨-, -, attended, -⟩ := orderly_turns (Script.ofAnswers []) 4 0 waiting rfl
  obtain ⟨-, -, -, -, told⟩ := orderly_turns (Script.ofAnswers []) 4 0 ended rfl
  exact ⟨_, _, _, _, waiting, ended, rfl, rfl, attended _ rfl, rfl, told rfl 0⟩

end ScheduleSearch.GateSystem
