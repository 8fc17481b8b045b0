import ScheduleSearch.Proofs.Exploration.LockNumbers
import ScheduleSearch.Proofs.Scheduler.AnyActor
import ScheduleSearch.Proofs.Scheduler.Calls
import ScheduleSearch.Proofs.Scheduler.Likeness
import ScheduleSearch.Proofs.Scheduler.Refusals
import ScheduleSearch.Proofs.Scheduler.Renaming

/-!
# When host threads start to carry threads

At which moment a host thread starts to carry a thread, and which host thread it is, depends on
the machine.  Two executions are compared to which the same events are reported, under sources
that answer alike; in each of them host threads start to carry threads at moments of its own.
The registry of one execution differs from that of the other in nothing but the two tables of
carriers, and no event looks at these.  So the executions agree event by event, and their sources
are asked the same.
-/

namespace ScheduleSearch

/-- Whether a host thread starts to carry the acting thread. -/
def Event.isBind : Event → Bool
  | bind _ => true
  | _ => false

namespace DecisionSource

variable {σ τ : Type} [DecisionSource σ] [DecisionSource τ]

/-- The answers to some questions, asked one after the other. -/
def replies (source : σ) : List Question → List (Except Fault ThreadId)
  | [] => []
  | question :: rest => (decide source question).1 :: replies (decide source question).2 rest

/-- Two sources answer the same, whatever they are asked. -/
def AnswerAlike (source : σ) (source' : τ) : Prop :=
  ∀ questions, replies source questions = replies source' questions

/-- Related sources answer the same, and are related afterwards. -/
def Consonant (relates : σ → τ → Prop) : Prop :=
  ∀ (source : σ) (source' : τ) (question : Question), relates source source' →
    (decide source question).1 = (decide source' question).1 ∧
      relates (decide source question).2 (decide source' question).2

private theorem consonant_answerAlike : Consonant (AnswerAlike : σ → τ → Prop) := by
  intro source source' question alike
  refine ⟨?_, fun questions => ?_⟩
  · exact (List.cons.inj (alike [question])).1
  · exact (List.cons.inj (alike (question :: questions))).2

/-- The sources answer alike, and they were asked the same questions. -/
structure AskedAlike (left : Questioned σ) (right : Questioned τ) : Prop where
  alike : AnswerAlike left.source right.source
  questions : left.questions = right.questions

private theorem consonant_askedAlike :
    Consonant (AskedAlike : Questioned σ → Questioned τ → Prop) := by
  intro left right question asked
  obtain ⟨answer, again⟩ :=
    consonant_answerAlike left.source right.source question asked.alike
  exact ⟨answer, again, congrArg (· ++ [question]) asked.questions⟩

end DecisionSource

open DecisionSource

namespace Scheduler

variable {σ τ : Type}

/-! ## Executions that differ in their host threads -/

/-- The state with another registry and another source. -/
def hosted (state : Scheduler σ) (registry : Registry) (source : τ) : Scheduler τ :=
  { state.become state.monitors source with registry := registry }

/-- The states differ in nothing but their host threads and their sources, which are related. -/
inductive Rehosted (relates : σ → τ → Prop) : Scheduler σ → Scheduler τ → Prop
  | hosted (left : Scheduler σ) (registry : Registry) (source : τ)
      (spawned : registry.spawned = left.registry.spawned)
      (related : relates left.source source) :
      Rehosted relates left (left.hosted registry source)

end Scheduler

namespace Prepared

variable {σ τ : Type}

def hosted (registry : Registry) (source : τ) : Prepared σ → Prepared τ
  | settled outcome state => settled outcome (state.hosted registry source)
  | choosing label state => choosing label (state.hosted registry source)

/-- Both sides are settled with one outcome, or choose under one label. -/
inductive Rehosted (relates : σ → τ → Prop) : Prepared σ → Prepared τ → Prop
  | settled (outcome : Outcome Reply) {left : Scheduler σ} {right : Scheduler τ}
      (states : left.Rehosted relates right) :
      Rehosted relates (settled outcome left) (settled outcome right)
  | choosing (label : String) {left : Scheduler σ} {right : Scheduler τ}
      (states : left.Rehosted relates right) :
      Rehosted relates (choosing label left) (choosing label right)

end Prepared

namespace Scheduler

section Equations

variable {σ τ : Type} (state : Scheduler σ) (registry : Registry) (source : τ)

theorem threads_hosted : (state.hosted registry source).threads = state.threads := rfl

theorem monitors_hosted : (state.hosted registry source).monitors = state.monitors := rfl

theorem target_hosted (thread : ThreadId) :
    (state.hosted registry source).target thread = state.target thread := rfl

private theorem stoodBack_hosted (thread : ThreadId) :
    (state.hosted registry source).stoodBack thread =
      (state.stoodBack thread).hosted registry source := by
  rw [stoodBack, stoodBack, apply_ite (fun state => hosted state registry source)]
  rfl

private theorem standingBack_hosted (thread : ThreadId) :
    (state.hosted registry source).standingBack thread =
      (state.standingBack thread).hosted registry source :=
  congrArg (Prepared.choosing (state.label thread)) (state.stoodBack_hosted registry source thread)

private theorem grantPermit_hosted (target : ThreadId) :
    (state.hosted registry source).grantPermit target =
      (state.grantPermit target).hosted registry source := by
  rw [grantPermit, grantPermit, apply_ite (fun state => hosted state registry source)]
  rfl

private theorem requeued_hosted (target : ThreadId) (wanted : Option LockId) :
    (state.hosted registry source).requeued target wanted =
      (state.requeued target wanted).hosted registry source := by
  cases wanted with
  | none => rfl
  | some lock =>
      rw [requeued, requeued, apply_ite (fun state => hosted state registry source)]
      rfl

private theorem unparked_hosted (target : ThreadId) :
    (state.hosted registry source).unparked target =
      (state.unparked target).hosted registry source := by
  rw [unparked, unparked, apply_ite (fun state => hosted state registry source)]
  rfl

private theorem setInterrupt_hosted (target : ThreadId) :
    (state.hosted registry source).setInterrupt target =
      (state.setInterrupt target).hosted registry source := by
  rw [setInterrupt_eq, setInterrupt_eq, ← unparked_hosted, ← requeued_hosted]
  rfl

private theorem prepareAction_hosted (actor : ThreadId) (action : Action) :
    (state.hosted registry source).prepareAction actor action =
      (state.prepareAction actor action).hosted registry source := by
  cases action with
  | yield site =>
      exact standingBack_hosted { state with places := state.places.insert actor site }
        registry source actor
  | enter lock =>
      simp only [prepareAction]
      rw [apply_ite (Prepared.hosted registry source)]
      rfl
  | leave lock =>
      simp only [prepareAction, monitors_hosted]
      cases state.monitors.leave actor lock with
      | error fault => rfl
      | ok effect =>
          exact standingBack_hosted ({ state with monitors := effect.2 }.follow effect.1
            (.lock lock)) registry source actor
  | wait lock timed =>
      simp only [prepareAction, monitors_hosted]
      cases state.monitors.wait actor lock timed with
      | error fault => rfl
      | ok effect =>
          exact standingBack_hosted ({ state with monitors := effect.2 }.follow effect.1
            (.signal lock)) registry source actor
  | notify lock =>
      simp only [prepareAction, monitors_hosted]
      cases state.monitors.notify actor lock <;> rfl
  | notifyAll lock =>
      simp only [prepareAction, monitors_hosted]
      cases state.monitors.notifyAll actor lock <;> rfl
  | park =>
      simp only [prepareAction]
      rw [apply_ite (Prepared.hosted registry source), apply_ite (Prepared.hosted registry source)]
      rfl
  | unpark target =>
      simp only [prepareAction, target_hosted]
      cases state.target target with
      | exited => rfl
      | unknown => rfl
      | live => exact congrArg Prepared.goOn (state.grantPermit_hosted registry source target)
  | join joinee timed =>
      simp only [prepareAction, target_hosted]
      cases state.target joinee with
      | exited => rfl
      | unknown => rfl
      | live =>
          cases timed with
          | true => exact state.standingBack_hosted registry source actor
          | false => rfl
  | interrupt target =>
      simp only [prepareAction, target_hosted]
      cases state.target target with
      | exited => rfl
      | unknown => rfl
      | live => exact congrArg Prepared.goOn (state.setInterrupt_hosted registry source target)

private theorem promote_hosted (next : ThreadId) :
    (state.hosted registry source).promote next =
      Prod.map id (fun state => hosted state registry source) (state.promote next) := by
  simp only [promote, threads_hosted]
  cases state.threads.setRunning next with
  | error violation => rfl
  | ok threads =>
      dsimp only
      rw [apply_ite (Prod.map id fun state => hosted state registry source)]
      rfl

end Equations

end Scheduler

private theorem Prepared.rehosted {σ τ : Type} {relates : σ → τ → Prop} (prepared : Prepared σ)
    {registry : Registry} {source : τ}
    (spawned : registry.spawned = prepared.state.registry.spawned)
    (related : relates prepared.state.source source) :
    prepared.Rehosted relates (prepared.hosted registry source) := by
  cases prepared with
  | settled outcome after => exact .settled outcome (.hosted after registry source spawned related)
  | choosing label ready => exact .choosing label (.hosted ready registry source spawned related)

namespace Scheduler

section Steps

variable {σ τ : Type} {relates : σ → τ → Prop} {left : Scheduler σ} {right : Scheduler τ}

private theorem Rehosted.prepareAction (states : left.Rehosted relates right) (actor : ThreadId)
    (action : Action) :
    (left.prepareAction actor action).Rehosted relates (right.prepareAction actor action) := by
  obtain ⟨registry, source, spawned, related⟩ := states
  have frame := frame_prepareAction left actor action
  have noted : (left.noted actor (.act action)).registry = left.registry ∧
      (left.noted actor (.act action)).source = left.source := by
    cases action <;> exact ⟨rfl, rfl⟩
  rw [prepareAction_hosted]
  refine Prepared.rehosted _ ?_ ?_
  · rw [frame.registry, noted.1, spawned]
  · rw [frame.source, noted.2]
    exact related

private theorem Rehosted.prepare (states : left.Rehosted relates right) (actor : ThreadId)
    {event : Event} (unbound : event.isBind = false) :
    (left.prepare actor event).Rehosted relates (right.prepare actor event) := by
  obtain ⟨⟨threads, hosts, counts⟩, source, spawned, related⟩ := states
  cases event with
  | announce =>
      obtain rfl : counts = left.registry.spawned := spawned
      exact .settled _ (.hosted (left.announce actor).2 ⟨threads, hosts, _⟩ source rfl related)
  | bind host => cases unbound
  | exit =>
      refine .choosing _ (.hosted (left.forget actor)
        ((⟨threads, hosts, counts⟩ : Registry).forget actor).2 source ?_ related)
      change _ = (left.registry.forget actor).2.spawned
      rw [spawned_forget, spawned_forget, spawned]
  | choose =>
      have frame := frame_stoodBack left actor
      change Prepared.Rehosted _ _
        ((left.hosted ⟨threads, hosts, counts⟩ source).standingBack actor)
      rw [standingBack_hosted]
      refine Prepared.rehosted _ (spawned.trans (congrArg _ frame.registry.symm)) ?_
      exact frame.source ▸ related
  | readInterrupt clear =>
      cases clear with
      | false => exact .settled _ (.hosted left _ source spawned related)
      | true =>
          exact .settled _ (.hosted { left with interrupted := left.interrupted.erase actor } _
            source spawned related)
  | act action => exact prepareAction (.hosted left _ source spawned related) actor action

/-- The same came of both, and the states differ in nothing but their host threads. -/
structure Concur {α : Type} (relates : σ → τ → Prop) (first : α × Scheduler σ)
    (second : α × Scheduler τ) : Prop where
  outcome : first.1 = second.1
  states : first.2.Rehosted relates second.2

private theorem Concur.exists_eq {α : Type} {first : α × Scheduler σ} {second : α × Scheduler τ}
    (concur : Concur relates first second) :
    ∃ answer left right, first = (answer, left) ∧ second = (answer, right) ∧
      left.Rehosted relates right :=
  ⟨first.1, first.2, second.2, rfl, Prod.ext concur.outcome.symm rfl, concur.states⟩

private theorem Concur.map {α β : Type} {first : Outcome α × Scheduler σ}
    {second : Outcome α × Scheduler τ} (concur : Concur relates first second) (tell : α → β) :
    Concur relates (first.1.map tell, first.2) (second.1.map tell, second.2) :=
  ⟨congrArg (Except.map tell) concur.outcome, concur.states⟩

private theorem Rehosted.threads (states : left.Rehosted relates right) :
    left.threads = right.threads := by
  obtain ⟨registry, source, -, -⟩ := states
  rfl

private theorem Rehosted.stalled (states : left.Rehosted relates right) :
    left.stalled = right.stalled := by
  obtain ⟨registry, source, -, -⟩ := states
  rfl

private theorem Rehosted.promote (states : left.Rehosted relates right) (next : ThreadId) :
    Concur relates (left.promote next) (right.promote next) := by
  obtain ⟨registry, source, spawned, related⟩ := states
  have frame := frame_promote_anyway left next
  rw [promote_hosted]
  refine ⟨rfl, .hosted _ registry source ?_ ?_⟩
  · rw [frame.registry, spawned]
  · rw [source_promote]
    exact related

variable [DecisionSource σ] [DecisionSource τ]

private theorem Rehosted.ask (states : left.Rehosted relates right) (consonant : Consonant relates)
    (question : Question) : Concur relates (left.ask question) (right.ask question) := by
  obtain ⟨registry, source, spawned, related⟩ := states
  obtain ⟨answer, again⟩ := consonant left.source source question related
  unfold Scheduler.ask
  dsimp only [Scheduler.hosted, become]
  split
  · exact ⟨rfl, .hosted { left with decisions := left.decisions + 1 } registry source spawned
      related⟩
  · generalize DecisionSource.decide left.source question = first at answer again
    generalize DecisionSource.decide source question = second at answer again
    obtain ⟨reply, asked⟩ := first
    obtain ⟨reply', asked'⟩ := second
    obtain rfl : reply = reply' := answer
    have states := Rehosted.hosted
      { left with decisions := left.decisions + 1, source := asked } registry asked' spawned again
    cases reply with
    | error fault => exact ⟨rfl, states⟩
    | ok chosen =>
        dsimp only
        split
        · exact ⟨rfl, states⟩
        · exact ⟨rfl, states⟩

private theorem Rehosted.select (states : left.Rehosted relates right)
    (consonant : Consonant relates) (label : String) (options : List ThreadId) :
    Concur relates (left.select label options) (right.select label options) := by
  unfold Scheduler.select
  split
  · exact ⟨rfl, states⟩
  · exact states.ask consonant _

private theorem Rehosted.pickWithin (consonant : Consonant relates) (label : String)
    (rounds : Nat) :
    ∀ {left : Scheduler σ} {right : Scheduler τ}, left.Rehosted relates right →
      Concur relates (pickWithin rounds left label) (pickWithin rounds right label) := by
  induction rounds with
  | zero => exact fun states => ⟨states.stalled, states⟩
  | succ rounds inductionHypothesis =>
      intro left right states
      obtain ⟨answer, asked, asked', selected, selected', related⟩ :=
        (states.select consonant label left.threads.runnable).exists_eq
      unfold Scheduler.pickWithin
      rw [← states.threads, ← states.stalled]
      split
      · exact ⟨rfl, states⟩
      · rw [selected, selected']
        cases answer with
        | error halt => exact ⟨rfl, related⟩
        | ok next =>
            obtain ⟨verdict, after, after', turned, turned', reached⟩ :=
              (related.promote next).exists_eq
            dsimp only
            rw [turned, turned']
            match verdict with
            | .error halt => exact ⟨rfl, reached⟩
            | .ok true => exact ⟨rfl, reached⟩
            | .ok false => exact inductionHypothesis reached

private theorem Rehosted.pick (states : left.Rehosted relates right) (consonant : Consonant relates)
    (label : String) : Concur relates (left.pick label) (right.pick label) := by
  unfold Scheduler.pick
  rw [← states.threads]
  exact pickWithin consonant label _ states

/-- What is left to choose is chosen alike. -/
theorem Rehosted.complete {first : Prepared σ} {second : Prepared τ}
    (prepared : first.Rehosted relates second) (consonant : Consonant relates) :
    Concur relates first.complete second.complete := by
  cases prepared with
  | settled outcome states => exact ⟨rfl, states⟩
  | choosing label states => exact (states.pick consonant label).map Reply.schedule

/-- An event by which no host thread starts to carry a thread comes to the same. -/
theorem Rehosted.step (states : left.Rehosted relates right) (consonant : Consonant relates)
    (actor : ThreadId) {event : Event} (unbound : event.isBind = false) :
    Concur relates (left.step actor event) (right.step actor event) := by
  have alive : right.isLive actor = left.isLive actor := by
    rw [isLive, isLive, states.threads]
  cases live : left.isLive actor with
  | false =>
      rw [step_of_not_live live, step_of_not_live (alive.trans live)]
      exact ⟨rfl, states⟩
  | true =>
      rw [step_of_live live, step_of_live (alive.trans live)]
      exact Rehosted.complete (states.prepare actor unbound) consonant

omit [DecisionSource σ] [DecisionSource τ] in
/-- The execution may be begun by any host thread. -/
theorem Rehosted.begin (states : left.Rehosted relates right) (host host' : Host) :
    Concur relates (left.begin host) (right.begin host') := by
  obtain ⟨registry, source, spawned, related⟩ := states
  unfold Scheduler.begin
  dsimp only [Scheduler.hosted, become, Registry.create, Registry.allocate]
  have bound := fun threads : RunStates => Rehosted.hosted
    { left with registry := left.registry.bind host .root, threads := threads }
    (registry.bind host' .root) source spawned related
  split
  · exact ⟨rfl, bound _⟩
  · exact ⟨rfl, bound left.threads⟩

omit [DecisionSource τ] in
private theorem Rehosted.bindLeft (states : left.Rehosted relates right) (actor : ThreadId)
    (host : Host) : (left.step actor (.bind host)).2.Rehosted relates right := by
  obtain ⟨registry, source, spawned, related⟩ := states
  unfold Scheduler.step ifLive
  split
  · exact .hosted { left with registry := left.registry.bind host actor } registry source spawned
      related
  · exact .hosted left registry source spawned related

omit [DecisionSource σ] in
private theorem Rehosted.bindRight (states : left.Rehosted relates right) (actor : ThreadId)
    (host : Host) : left.Rehosted relates (right.step actor (.bind host)).2 := by
  obtain ⟨registry, source, spawned, related⟩ := states
  unfold Scheduler.step ifLive
  split
  · exact .hosted left (registry.bind host actor) source spawned related
  · exact .hosted left registry source spawned related

end Steps

/-! ## Runs -/

/-- The states agree in all but the tables of carriers and the source. -/
structure SameButHosts {σ τ : Type} (left : Scheduler σ) (right : Scheduler τ) : Prop where
  spawned : left.registry.spawned = right.registry.spawned
  threads : left.threads = right.threads
  monitors : left.monitors = right.monitors
  joins : left.joins = right.joins
  permits : left.permits = right.permits
  interrupted : left.interrupted = right.interrupted
  exited : left.exited = right.exited
  places : left.places = right.places
  rootExited : left.rootExited = right.rootExited
  decisions : left.decisions = right.decisions
  maxDecisions : left.maxDecisions = right.maxDecisions

end Scheduler

/-- The event that the call reports, if it is no beginning. -/
def SchedulerCall.event? : SchedulerCall → Option (ThreadId × Event)
  | begin _ => none
  | report actor event => some (actor, event)

/-- By the call a host thread starts to carry a thread that lives already. -/
def SchedulerCall.isBind : SchedulerCall → Bool
  | begin _ => false
  | report _ event => event.isBind

/-- The same events are reported by both sequences of calls, each of which lets host threads start
to carry threads wherever it likes. -/
inductive SameEvents : List SchedulerCall → List SchedulerCall → Prop
  | nil : SameEvents [] []
  | begin (host host' : Host) {calls calls' : List SchedulerCall} (rest : SameEvents calls calls') :
      SameEvents (.begin host :: calls) (.begin host' :: calls')
  | event (actor : ThreadId) {event : Event} (unbound : event.isBind = false)
      {calls calls' : List SchedulerCall} (rest : SameEvents calls calls') :
      SameEvents (.report actor event :: calls) (.report actor event :: calls')
  | bindLeft (actor : ThreadId) (host : Host) {calls calls' : List SchedulerCall}
      (rest : SameEvents calls calls') :
      SameEvents (.report actor (.bind host) :: calls) calls'
  | bindRight (actor : ThreadId) (host : Host) {calls calls' : List SchedulerCall}
      (rest : SameEvents calls calls') :
      SameEvents calls (.report actor (.bind host) :: calls')

/-- The same call came to the same. -/
structure SameResult {σ τ : Type} (relates : σ → τ → Prop) (left : CallResult σ)
    (right : CallResult τ) : Prop where
  event : left.call.event? = right.call.event?
  outcome : left.outcome = right.outcome
  after : left.after.SameButHosts right.after
  sources : relates left.after.source right.after.source

/-- The results of all calls but those by which host threads start to carry threads. -/
def unbound {σ : Type} (results : List (CallResult σ)) : List (CallResult σ) :=
  results.filter fun result => !result.call.isBind

private theorem unbound_cons {σ : Type} (result : CallResult σ) (rest : List (CallResult σ))
    (kept : result.call.isBind = false) : unbound (result :: rest) = result :: unbound rest :=
  List.filter_cons_of_pos (by rw [kept]; rfl)

namespace Scheduler

variable {σ τ : Type} {relates : σ → τ → Prop} {left : Scheduler σ} {right : Scheduler τ}

private theorem Rehosted.sameButHosts (states : left.Rehosted relates right) :
    left.SameButHosts right := by
  obtain ⟨registry, source, spawned, -⟩ := states
  exact ⟨spawned.symm, rfl, rfl, rfl, rfl, rfl, rfl, rfl, rfl, rfl, rfl⟩

private theorem Rehosted.related (states : left.Rehosted relates right) :
    relates left.source right.source := by
  obtain ⟨registry, source, -, related⟩ := states
  exact related

variable [DecisionSource σ] [DecisionSource τ]

/-- Executions in states that differ in nothing but their host threads stay in such states under
the same events, wherever host threads start to carry threads. -/
theorem Rehosted.answers (states : left.Rehosted relates right) (consonant : Consonant relates)
    {calls calls' : List SchedulerCall} (same : SameEvents calls calls') :
    List.Forall₂ (SameResult relates) (unbound (left.answers calls))
        (unbound (right.answers calls')) ∧
      (left.afterCalls calls).Rehosted relates (right.afterCalls calls') := by
  induction same generalizing left right with
  | nil => exact ⟨.nil, states⟩
  | begin host host' _ inductionHypothesis =>
      have begun := states.begin host host'
      obtain ⟨results, final⟩ := inductionHypothesis begun.states
      exact ⟨.cons ⟨rfl, congrArg (Except.map Reply.announced) begun.outcome,
        begun.states.sameButHosts, begun.states.related⟩ results, final⟩
  | @event actor event unbound calls calls' _ inductionHypothesis =>
      have stepped := states.step consonant actor unbound
      obtain ⟨results, final⟩ := inductionHypothesis stepped.states
      have first : SameResult relates (left.answer (.report actor event))
          (right.answer (.report actor event)) :=
        ⟨rfl, stepped.outcome, stepped.states.sameButHosts, stepped.states.related⟩
      rw [Scheduler.answers, Scheduler.answers,
        unbound_cons (left.answer (.report actor event)) _ unbound,
        unbound_cons (right.answer (.report actor event)) _ unbound]
      exact ⟨.cons first results, final⟩
  | bindLeft actor host _ inductionHypothesis =>
      exact inductionHypothesis (states.bindLeft actor host)
  | bindRight actor host _ inductionHypothesis =>
      exact inductionHypothesis (states.bindRight actor host)

omit [DecisionSource σ] [DecisionSource τ] in
private theorem rehosted_fresh {source : σ} {source' : τ} (related : relates source source')
    (maxDecisions : Nat) :
    (fresh source maxDecisions).Rehosted relates (fresh source' maxDecisions) :=
  .hosted (fresh source maxDecisions) Registry.empty source' rfl related

/-- At which moments host threads start to carry threads, and which host threads do, shows
nowhere: events come to the same, the states agree in all but the carriers, and the sources are
asked the same questions. -/
theorem host_timing_irrelevant {source : σ} {source' : τ} (alike : AnswerAlike source source')
    (maxDecisions : Nat) {calls calls' : List SchedulerCall} (same : SameEvents calls calls') :
    List.Forall₂ (SameResult AnswerAlike)
        (unbound ((fresh source maxDecisions).answers calls))
        (unbound ((fresh source' maxDecisions).answers calls')) ∧
      List.Forall₂ (SameResult AskedAlike)
        (unbound ((fresh (Questioned.ofSource source) maxDecisions).answers calls))
        (unbound ((fresh (Questioned.ofSource source') maxDecisions).answers calls')) ∧
      ((fresh source maxDecisions).afterCalls calls).SameButHosts
        ((fresh source' maxDecisions).afterCalls calls') := by
  have asked : AskedAlike (Questioned.ofSource source) (Questioned.ofSource source') := ⟨alike, rfl⟩
  obtain ⟨results, final⟩ :=
    (rehosted_fresh alike maxDecisions).answers consonant_answerAlike same
  obtain ⟨questioned, -⟩ :=
    (rehosted_fresh asked maxDecisions).answers consonant_askedAlike same
  exact ⟨results, questioned, final.sameButHosts⟩

/-- A host thread takes up the child at once, or others do in turn while the child already runs. -/
theorem host_timing_of_late_carriers :
    let child : ThreadId := .child .root 0
    let source := Script.ofAnswers [.position 1, .position 1]
    let calls : List SchedulerCall := [.begin 0, .report .root .announce,
      .report child (.bind 1), .report .root .choose, .report child (.act (.enter ⟨4⟩))]
    let calls' : List SchedulerCall := [.begin 7, .report .root .announce, .report .root .choose,
      .report child (.bind 2), .report child (.act (.enter ⟨4⟩)), .report child (.bind 3)]
    AnswerAlike source source ∧ SameEvents calls calls' ∧
      ((fresh source 9).afterCalls calls).registry.hostOf? child = some 1 ∧
      ((fresh source 9).afterCalls calls').registry.hostOf? child = some 3 ∧
      ((fresh source 9).afterCalls calls).monitors.owner? ⟨4⟩ = some child ∧
      ((fresh source 9).afterCalls calls).SameButHosts ((fresh source 9).afterCalls calls') := by
  intro child source calls calls'
  have alike : AnswerAlike source source := fun _ => rfl
  have same : SameEvents calls calls' :=
    .begin 0 7 (.event .root rfl (.bindLeft child 1 (.event .root rfl (.bindRight child 2
      (.event child rfl (.bindRight child 3 .nil))))))
  exact ⟨alike, same, by decide +kernel, by decide +kernel, by decide +kernel,
    (host_timing_irrelevant alike 9 same).2.2⟩

end Scheduler

end ScheduleSearch
