import ScheduleSearch.Proofs.Scheduler.Rounds
import ScheduleSearch.Proofs.Scheduler.StuckThreads

/-!
# What the source of decisions is asked

The source of decisions is asked while nobody runs, and it is offered all runnable threads,
if there are at least two, in the order of their lineages.  An answer that is a fault, or a
thread that was not offered, ends the event, and nobody runs.

Over a whole run the choices among several threads are counted.  The source is asked for the
first of them, as many as the limit allows, and the event that needs one more reports that.
-/

namespace ScheduleSearch

/-- The label of the decisions that an event calls for, the event being the last of a history. -/
def History.decisionLabel (history : History) (actor : ThreadId) : Event → String
  | .exit => actor.name ++ " exit"
  | _ => actor.name ++ " @ " ++ ((history.lastSite actor).map Site.text).getD "start"

namespace Scheduler

variable {σ : Type} [DecisionSource σ]

/-- Running threads report the events of a history, whether these succeed or not. -/
inductive Reports (first : Scheduler σ) : History → Scheduler σ → Prop
  | refl : Reports first [] first
  | report {history : History} {state : Scheduler σ} {actor : ThreadId}
      (reports : Reports first history state) (runs : state.threads.isRunning actor = true)
      (event : Event) : Reports first (history ++ [(actor, event)]) (state.step actor event).2

theorem Steps.reports {first state : Scheduler σ} {history : History}
    (steps : Steps first history state) : Reports first history state := by
  induction steps with
  | refl => exact .refl
  | @report history state after actor event reply steps runs stepped inductionHypothesis =>
      have reports := inductionHypothesis.report runs event
      rw [stepped] at reports
      exact reports

/-- The rounds of all events of a history. -/
def roundsAlong : Scheduler σ → History → List (Round σ)
  | _, [] => []
  | state, (actor, event) :: rest =>
      state.roundsOf actor event ++ roundsAlong (state.step actor event).2 rest

private theorem Reports.roundsAlong_append {first state : Scheduler σ} {history : History}
    (reports : Reports first history state) (more : History) :
    roundsAlong first (history ++ more) = roundsAlong first history ++ roundsAlong state more := by
  induction reports generalizing more with
  | refl => rfl
  | @report history state actor reports runs event inductionHypothesis =>
      rw [List.append_assoc, inductionHypothesis, inductionHypothesis, List.append_assoc]
      congr 1
      change state.roundsOf actor event ++ _ = (state.roundsOf actor event ++ []) ++ _
      rw [List.append_nil]
      rfl

variable {state : Scheduler σ} {actor : ThreadId} {history : History}

omit [DecisionSource σ] in
private theorem prepare_label (state : Scheduler σ) (actor : ThreadId) (event : Event)
    {label : String}
    {ready : Scheduler σ} (choosing : state.prepare actor event = .choosing label ready) :
    label = match event with
      | .exit => exitLabel actor
      | _ => (state.noted actor event).label actor := by
  match event with
  | .announce => cases choosing
  | .bind host => cases choosing
  | .exit =>
      cases choosing
      rfl
  | .choose =>
      cases choosing
      rfl
  | .readInterrupt clear => cases choosing
  | .act (.yield site) =>
      cases choosing
      rfl
  | .act (.enter lock) =>
      simp only [prepare, prepareAction] at choosing
      split at choosing
      · cases choosing
      · cases choosing
        rfl
  | .act (.leave lock) =>
      simp only [prepare, prepareAction] at choosing
      split at choosing
      · cases choosing
      · cases choosing
        rfl
  | .act (.wait lock timed) =>
      simp only [prepare, prepareAction] at choosing
      split at choosing
      · cases choosing
      · cases choosing
        rfl
  | .act (.notify lock) =>
      simp only [prepare, prepareAction] at choosing
      split at choosing <;> cases choosing
  | .act (.notifyAll lock) =>
      simp only [prepare, prepareAction] at choosing
      split at choosing <;> cases choosing
  | .act .park =>
      simp only [prepare, prepareAction] at choosing
      split at choosing
      · cases choosing
      · split at choosing
        · cases choosing
        · cases choosing
          rfl
  | .act (.unpark target) =>
      simp only [prepare, prepareAction] at choosing
      split at choosing <;> cases choosing
  | .act (.join joinee timed) =>
      simp only [prepare, prepareAction] at choosing
      split at choosing
      · cases choosing
      · cases choosing
      · split at choosing <;> cases choosing <;> rfl
  | .act (.interrupt target) =>
      simp only [prepare, prepareAction] at choosing
      split at choosing <;> cases choosing

omit [DecisionSource σ] in
/-- The label of a choice names the place that the acting thread passed last. -/
private theorem Recorded.label_eq (recorded : state.Recorded history) (coherent : state.Coherent)
    (runs : state.threads.state? actor = some .running) (event : Event) {label : String}
    {ready : Scheduler σ} (choosing : state.prepare actor event = .choosing label ready) :
    label = History.decisionLabel (history ++ [(actor, event)]) actor event := by
  have same := prepare_label state actor event choosing
  have noted := recorded.noted actor event
  have present : state.hasExited actor = false := by
    rw [← Bool.not_eq_true]
    intro exited
    rw [coherent.finished actor exited] at runs
    cases runs
  have seen : (state.noted actor event).hasExited actor = false →
      (state.noted actor event).label actor = actor.name ++ " @ " ++
        ((History.lastSite (history ++ [(actor, event)]) actor).map Site.text).getD "start" := by
    intro stays
    rw [Scheduler.label, noted.places actor stays]
    cases History.lastSite (history ++ [(actor, event)]) actor with
    | none =>
        change actor.name ++ " @ start" = actor.name ++ " @ " ++ "start"
        rw [String.append_assoc]
        rfl
    | some site => rfl
  rw [same]
  match event with
  | .announce => exact seen present
  | .bind host => exact seen present
  | .exit => rfl
  | .choose => exact seen present
  | .readInterrupt clear => exact seen present
  | .act action => cases action <;> exact seen present

private theorem asks_prepare (state : Scheduler σ) (actor : ThreadId) (event : Event) :
    Asks state (state.prepare actor event).state [] := by
  obtain ⟨source, decisions⟩ := undecided_prepare state actor event
  refine .of_same ((frame_prepare state actor event).maxDecisions.trans ?_) decisions source
  match event with
  | .announce => rfl
  | .bind host => rfl
  | .exit => rfl
  | .choose => rfl
  | .readInterrupt clear => rfl
  | .act action => cases action <;> rfl

/-- An event of the running thread settles the matter without a round, or it comes to a choice
under its label. -/
theorem Coherent.step_rounds (coherent : state.Coherent)
    (runs : state.threads.state? actor = some .running) (event : Event) :
    (∃ outcome after, state.step actor event = (outcome, after) ∧
      state.roundsOf actor event = [] ∧ Asks state after [] ∧
      ∀ fault, outcome = .error (.fault fault) → fault.isContractViolation = true) ∨
    ∃ label ready result, state.prepare actor event = .choosing label ready ∧
      state.step actor event = (result.1.map .schedule, result.2) ∧
      Picks label ready (state.roundsOf actor event) result ∧ Asks state ready [] := by
  have prepared := coherent.ready runs event
  have refusing := refusing_prepare state actor event
  have asks := asks_prepare state actor event
  rw [step_of_live (isLive_iff.2 ⟨_, runs⟩)]
  unfold roundsOf
  cases shape : state.prepare actor event with
  | settled outcome after =>
      rw [shape] at refusing asks
      refine .inl ⟨outcome, after, rfl, rfl, asks, ?_⟩
      rintro fault rfl
      exact refusing
  | choosing label ready =>
      rw [shape] at prepared asks
      have idle : ready.Idle := ⟨prepared.1, prepared.2⟩
      exact .inr ⟨label, ready, _, rfl, Prepared.complete_choosing label ready, idle.picks label,
        asks⟩

private theorem Coherent.asks_step (coherent : state.Coherent)
    (runs : state.threads.state? actor = some .running) (event : Event) :
    Asks state (state.step actor event).2 (state.roundsOf actor event) := by
  rcases coherent.step_rounds runs event with
    ⟨outcome, after, stepped, none, asks, -⟩ | ⟨label, ready, result, -, stepped, picks, asks⟩
  · rw [stepped, none]
    exact asks
  · rw [stepped]
    exact asks.trans picks.asks

/-- A consultation as a source may expect it. -/
structure Round.Proper (round : Round σ) (label : String) : Prop where
  nobody : ∀ thread, round.state.threads.state? thread ≠ some .running
  label : round.question.label = label
  several : 2 ≤ round.question.options.length
  runnable : ∀ option ∈ round.question.options, round.state.threads.state? option = some .runnable
  complete : ∀ thread, round.state.threads.state? thread = some .runnable →
    ∃ option ∈ round.question.options, option.lineage = thread.lineage
  ascending : round.question.options.Pairwise fun earlier later =>
    compare earlier.lineage later.lineage = .lt

omit [DecisionSource σ] in
private theorem Idle.proper {round : Round σ} (idle : round.state.Idle) (put : round.isPut = true) :
    round.Proper round.label where
  nobody := idle.nobody
  label := rfl
  several := of_decide_eq_true (Bool.and_eq_true_iff.1 put).1
  runnable := fun _ member => RunStates.mem_runnable member
  complete := by
    intro thread runnable
    have passed : RunState.runnable.isRunnable = true := rfl
    obtain ⟨option, member, same⟩ := RunStates.exists_mem_threadsWhere runnable passed
    exact ⟨option, member, same.symm⟩
  ascending := by
    refine (round.state.threads.threadsWhere_ascending RunState.isRunnable).imp ?_
    intro earlier later below
    rw [ThreadId.compare_eq_lineage] at below
    exact below

/-- What is known of the consultations of an event, the last of a history with so many choices
among several threads. -/
structure EventLaw (maxDecisions needed : Nat) (history : History) (state : Scheduler σ)
    (actor : ThreadId) (event : Event) : Prop where
  proper : ∀ round ∈ consultations (state.roundsOf actor event),
    round.Proper (history.decisionLabel actor event)
  refused : ∀ round ∈ consultations (state.roundsOf actor event), ∀ fault,
    round.answer.1 = .error fault →
      (state.step actor event).1 = .error (.fault fault) ∧
        ∀ thread, (state.step actor event).2.threads.state? thread ≠ some .running
  foreign : ∀ round ∈ consultations (state.roundsOf actor event), ∀ chosen,
    round.answer.1 = .ok chosen →
    (∀ option ∈ round.question.options, option.lineage ≠ chosen.lineage) →
      (state.step actor event).1 = .error (.fault (.untrackedThread chosen.name)) ∧
        ∀ thread, (state.step actor event).2.threads.state? thread ≠ some .running
  limit : maxDecisions < needed ↔
    (state.step actor event).1 = .error (.fault (.decisionLimitExceeded maxDecisions)) ∧
      ∀ round ∈ consultations (state.roundsOf actor event),
        round.answer.1 ≠ .error (.decisionLimitExceeded maxDecisions)
  spent : maxDecisions < needed →
    ∀ thread, (state.step actor event).2.threads.state? thread ≠ some .running

private theorem map_schedule_eq_error_iff {outcome : Outcome Schedule} {halt : Halt} :
    outcome.map Reply.schedule = .error halt ↔ outcome = .error halt := by
  constructor
  · intro halts
    cases outcome with
    | ok schedule => cases halts
    | error other =>
        cases halts
        rfl
  · intro halts
    rw [halts]
    rfl

private theorem EventLaw.of_settled {maxDecisions : Nat} {event : Event} {outcome : Outcome Reply}
    {after : Scheduler σ} (stepped : state.step actor event = (outcome, after))
    (none : state.roundsOf actor event = []) (room : after.decisions ≤ maxDecisions)
    (refusing : ∀ fault, outcome = .error (.fault fault) → fault.isContractViolation = true) :
    EventLaw maxDecisions after.decisions history state actor event := by
  have nothing : consultations (state.roundsOf actor event) = [] := by
    rw [none]
    rfl
  have within : ¬ maxDecisions < after.decisions := Nat.not_lt.2 room
  constructor
  · rw [nothing]
    exact List.forall_mem_nil _
  · rw [nothing]
    exact List.forall_mem_nil _
  · rw [nothing]
    exact List.forall_mem_nil _
  · rw [stepped]
    refine ⟨fun exceeds => absurd exceeds within, ?_⟩
    rintro ⟨rfl, -⟩
    cases refusing _ rfl
  · exact fun exceeds => absurd exceeds within

private theorem EventLaw.of_picks {event : Event} {label : String} {ready : Scheduler σ}
    {result : Outcome Schedule × Scheduler σ}
    (stepped : state.step actor event = (result.1.map .schedule, result.2))
    (picks : Picks label ready (state.roundsOf actor event) result)
    (room : ready.decisions ≤ ready.maxDecisions)
    (labelled : label = history.decisionLabel actor event) :
    EventLaw ready.maxDecisions result.2.decisions history state actor event := by
  have halts : ∀ round ∈ consultations (state.roundsOf actor event), ∀ halt, round.Fails halt →
      (state.step actor event).1 = .error halt ∧
        ∀ thread, (state.step actor event).2.threads.state? thread ≠ some .running := by
    intro round member halt fails
    obtain ⟨listed, put⟩ := List.mem_filter.1 member
    have halted := picks.of_fails listed put fails
    rw [stepped, halted]
    exact ⟨rfl, (picks.idle_of_error halted).nobody⟩
  have exceeds := picks.exceeds_iff room
  constructor
  · intro round member
    obtain ⟨listed, put⟩ := List.mem_filter.1 member
    obtain ⟨idle, same⟩ := picks.idle_of_mem listed
    rw [← labelled, ← same]
    exact idle.proper put
  · exact fun round member fault answered => halts round member _ (.refused answered)
  · exact fun round member chosen answered absent =>
      halts round member _ (.foreign answered absent)
  · rw [stepped, exceeds, consultations, List.forall_mem_filter]
    exact and_congr map_schedule_eq_error_iff.symm
      (forall₃_congr fun _ _ _ => not_congr Round.fails_limit_iff)
  · intro excess
    rw [stepped]
    exact (picks.idle_of_error (exceeds.1 excess).1).nobody

private theorem Coherent.eventLaw (coherent : state.Coherent)
    (runs : state.threads.state? actor = some .running)
    (room : state.decisions ≤ state.maxDecisions) (event : Event)
    (recorded : state.Recorded history) :
    EventLaw state.maxDecisions (state.step actor event).2.decisions
      (history ++ [(actor, event)]) state actor event := by
  rcases coherent.step_rounds runs event with
    ⟨outcome, after, stepped, none, asks, refusing⟩ |
      ⟨label, ready, result, choosing, stepped, picks, asks⟩
  · have kept : after.decisions = state.decisions := asks.count
    rw [stepped]
    exact .of_settled stepped none (kept ▸ room) refusing
  · have kept : ready.decisions = state.decisions := asks.count
    have law := EventLaw.of_picks stepped picks (by rw [kept, asks.limit]; exact room)
      (recorded.label_eq coherent runs event choosing)
    rw [asks.limit] at law
    rw [stepped]
    exact law

/-! ## Whole runs -/

theorem Reports.coherent {first : Scheduler σ} (reports : Reports first history state)
    (coherent : first.Coherent) : state.Coherent := by
  induction reports with
  | refl => exact coherent
  | report reports runs event inductionHypothesis =>
      exact (inductionHypothesis.reported (RunStates.isRunning_iff.1 runs) event).1

private theorem Reports.recorded {first : Scheduler σ} (reports : Reports first history state)
    (coherent : first.Coherent) (recorded : first.Recorded []) : state.Recorded history := by
  induction reports with
  | refl => exact recorded
  | report reports runs event inductionHypothesis =>
      exact inductionHypothesis.step (reports.coherent coherent) (RunStates.isRunning_iff.1 runs)
        event

private theorem Reports.asks {first : Scheduler σ} (reports : Reports first history state)
    (coherent : first.Coherent) : Asks first state (roundsAlong first history) := by
  induction reports with
  | refl => exact .of_same rfl rfl rfl
  | @report history state actor reports runs event inductionHypothesis =>
      have asks := (reports.coherent coherent).asks_step (RunStates.isRunning_iff.1 runs) event
      rw [reports.roundsAlong_append, roundsAlong, roundsAlong, List.append_nil]
      exact inductionHypothesis.trans asks

/-- While somebody runs the limit is not exceeded. -/
theorem Reports.room {first : Scheduler σ} (reports : Reports first history state)
    (coherent : first.Coherent) (recorded : first.Recorded [])
    (room : first.decisions ≤ first.maxDecisions)
    (runs : state.threads.state? actor = some .running) :
    state.decisions ≤ state.maxDecisions := by
  -- The event that exceeds the limit is the last of its run, since nobody runs after it.
  induction reports generalizing actor with
  | refl => exact room
  | @report history state reporter reports reporterRuns event inductionHypothesis =>
      have running := RunStates.isRunning_iff.1 reporterRuns
      have before := reports.coherent coherent
      have law := before.eventLaw running (inductionHypothesis running) event
        (reports.recorded coherent recorded)
      rw [(before.asks_step running event).limit]
      exact Nat.not_lt.1 fun excess => law.spent excess actor runs

/-- What is known of the consultations of a run, up to the state it has reached. -/
structure RunLaw (source : σ) (maxDecisions : Nat) (rounds : List (Round σ))
    (state : Scheduler σ) : Prop where
  inTurn : AskedInTurn source (consultations rounds) state.source
  first : consultations rounds = (choices rounds).take maxDecisions
  atMost : (consultations rounds).length ≤ maxDecisions
  decisions : state.decisions = (choices rounds).length
  count : (choices rounds).length ≤ maxDecisions →
    (consultations rounds).length = state.decisions

/-- The source is asked as it may expect, whatever it answers, and no more often than the limit
allows. -/
theorem Reports.consultations_lawful {source : σ} {maxDecisions : Nat} {host : Host}
    (reports : Reports ((fresh source maxDecisions).begin host).2 history state) :
    RunLaw source maxDecisions
        (roundsAlong ((fresh source maxDecisions).begin host).2 history) state ∧
      ∀ actor event, state.threads.isRunning actor = true →
        EventLaw maxDecisions
          (choices (roundsAlong ((fresh source maxDecisions).begin host).2
            (history ++ [(actor, event)]))).length
          (history ++ [(actor, event)]) state actor event := by
  have coherent := coherent_begun source maxDecisions host
  have recorded := recorded_begun source maxDecisions host
  have asks := reports.asks coherent
  have within : consultations _ = (choices _).take maxDecisions := asks.within
  have counted : state.decisions = (choices _).length := asks.count.trans (Nat.zero_add _)
  refine ⟨⟨asks.inTurn, within, ?_, counted, ?_⟩, ?_⟩
  · rw [within]
    exact List.length_take_le _ _
  · intro few
    rw [within, List.take_of_length_le few, counted]
  · intro actor event runs
    have running := RunStates.isRunning_iff.1 runs
    have room := reports.room coherent recorded (Nat.zero_le _) running
    have law := (reports.coherent coherent).eventLaw running room event
      (reports.recorded coherent recorded)
    have counts := ((reports.report runs event).asks coherent).count.trans (Nat.zero_add _)
    rw [asks.limit, counts] at law
    exact law

/-- The root announces two children and passes a place. -/
def choiceOfThree : History :=
  [(.root, .announce), (.root, .announce), (.root, .act (.yield ⟨"worker", 3, 1⟩))]

/-- The source is asked once, and then the limit is used up. -/
theorem consultation_of_three :
    ∃ state, Reports ((fresh (Script.ofAnswers [.position 2]) 1).begin 0).2 choiceOfThree state ∧
      state.threads.isRunning (.child .root 1) = true ∧
      state.source.asked =
        [⟨"main @ worker:3:1", [.root, .child .root 0, .child .root 1]⟩] ∧
      (state.step (.child .root 1) .exit).1 = .error (.fault (.decisionLimitExceeded 1)) ∧
      RunLaw (Script.ofAnswers [.position 2]) 1
        (roundsAlong ((fresh (Script.ofAnswers [.position 2]) 1).begin 0).2 choiceOfThree) state ∧
      EventLaw 1 2 (choiceOfThree ++ [(.child .root 1, .exit)]) state (.child .root 1) .exit := by
  have reached := drive_eq_reach ((fresh (Script.ofAnswers [.position 2]) 1).begin 0).2
    choiceOfThree (by decide +kernel)
  have reports := (steps_iff_drive.2 reached).reports
  obtain ⟨run, event⟩ := reports.consultations_lawful
  have law := event (.child .root 1) .exit (by decide +kernel)
  have needed : (choices (roundsAlong ((fresh (Script.ofAnswers [.position 2]) 1).begin 0).2
    (choiceOfThree ++ [(.child .root 1, .exit)]))).length = 2 := by decide +kernel
  rw [needed] at law
  exact ⟨_, reports, by decide +kernel, by decide +kernel, by decide +kernel, run, law⟩

end Scheduler

end ScheduleSearch
