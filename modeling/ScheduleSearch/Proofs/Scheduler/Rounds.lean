import ScheduleSearch.Proofs.Scheduler.Frame

/-!
# The rounds of a choice

A choice of the next thread goes on in rounds.  In each of them one of the runnable threads is
selected, and the round is repeated if that thread is blocked again.  The source of decisions is
asked in the rounds with several runnable threads, until the limit is used up.

`Picks` is the choice as a relation with one constructor for each way in which a round can go
on, and what is known of all rounds is proved by induction on it.  `Asks` says what a number of
rounds made of the source and of the count of decisions; it holds of one round and is
transitive, so it carries over to events and runs.
-/

namespace ScheduleSearch

private theorem RunStates.runnable_set (states : RunStates) (thread : ThreadId) (run : RunState)
    (stops : run.isRunnable = false) :
    (states.set thread run).runnable =
      states.runnable.filter fun other => !(compare thread other == .eq) := by
  have names : (Prod.fst ∘ fun entry : ThreadId × RunState =>
      if compare thread entry.1 == .eq then (entry.1, run) else entry) = Prod.fst := by
    funext entry
    simp only [Function.comp_apply]
    split <;> rfl
  simp only [runnable, threadsWhere, set, Table.modify, List.filter_map, List.map_map,
    List.filter_filter]
  change List.map (Prod.fst ∘ _) _ = _
  rw [names]
  refine congrArg _ (List.filter_congr fun entry _ => ?_)
  simp only [Function.comp_apply]
  by_cases here : (compare thread entry.1 == .eq) = true
  · simp [here, stops]
  · simp [here]

private theorem RunStates.length_runnable_lt {states : RunStates} {thread : ThreadId}
    (found : states.state? thread = some .runnable) (reason : Option BlockReason) :
    ((states.set thread .running).set thread (.blocked reason)).runnable.length <
      states.runnable.length := by
  have passed : RunState.runnable.isRunnable = true := rfl
  obtain ⟨listed, member, same⟩ := exists_mem_threadsWhere found passed
  have first := runnable_set states thread .running rfl
  have second := runnable_set (states.set thread .running) thread (.blocked reason) rfl
  rw [second, first]
  apply Nat.lt_of_le_of_lt (List.length_filter_le _ _)
  refine List.length_filter_lt_length_iff_exists.2 ⟨listed, member, ?_⟩
  simp [ThreadId.compare_eq_iff.2 same]

namespace Scheduler

/-- A round: the label of the choice and the state in which the round begins. -/
structure Round (σ : Type) where
  label : String
  state : Scheduler σ

namespace Round

variable {σ : Type}

/-- What there is to be asked. -/
def question (round : Round σ) : Question :=
  ⟨round.label, round.state.threads.runnable⟩

/-- Whether there are several threads to choose from. -/
def isChoice (round : Round σ) : Bool :=
  decide (2 ≤ round.state.threads.runnable.length)

/-- Whether the source is asked. -/
def isPut (round : Round σ) : Bool :=
  round.isChoice && decide (round.state.decisions < round.state.maxDecisions)

/-- The answer of the source, and the source after it. -/
def answer [DecisionSource σ] (round : Round σ) : Except Fault ThreadId × σ :=
  DecisionSource.decide round.state.source round.question

end Round

/-- The choices among several threads. -/
def choices {σ : Type} (rounds : List (Round σ)) : List (Round σ) :=
  rounds.filter Round.isChoice

/-- The choices that were left to the source. -/
def consultations {σ : Type} (rounds : List (Round σ)) : List (Round σ) :=
  rounds.filter Round.isPut

variable {σ : Type} [DecisionSource σ]

/-- The rounds of `pickWithin`. -/
def roundsWithin : Nat → Scheduler σ → String → List (Round σ)
  | 0, _, _ => []
  | rounds + 1, state, label =>
      match state.threads.runnable with
      | [] => []
      | options =>
          ⟨label, state⟩ ::
            match state.select label options with
            | (.error _, _) => []
            | (.ok next, asked) =>
                match asked.promote next with
                | (.ok false, demoted) => roundsWithin rounds demoted label
                | _ => []

/-- The rounds of an event. -/
def roundsOf (state : Scheduler σ) (actor : ThreadId) (event : Event) : List (Round σ) :=
  match state.prepare actor event with
  | .settled _ _ => []
  | .choosing label ready => roundsWithin ready.threads.runnable.length ready label

/-- What comes of an answer that does not choose an offered thread. -/
inductive Round.Fails (round : Round σ) : Halt → Prop
  | refused {fault : Fault} (answered : round.answer.1 = .error fault) : Fails round (.fault fault)
  | foreign {chosen : ThreadId} (answered : round.answer.1 = .ok chosen)
      (absent : ∀ option ∈ round.question.options, option.lineage ≠ chosen.lineage) :
      Fails round (untracked chosen)

/-- What a round selects, and the state after that. -/
inductive Selected (round : Round σ) : Outcome ThreadId → Scheduler σ → Prop
  | only {next : ThreadId} (alone : round.state.threads.runnable = [next]) :
      Selected round (.ok next) round.state
  | exceeded (several : round.isChoice = true) (spent : round.isPut = false) :
      Selected round (.error (.fault (.decisionLimitExceeded round.state.maxDecisions)))
        { round.state with decisions := round.state.decisions + 1 }
  | failed {halt : Halt} (put : round.isPut = true) (fails : round.Fails halt) :
      Selected round (.error halt)
        { round.state with decisions := round.state.decisions + 1, source := round.answer.2 }
  | chosen {chosen option : ThreadId} (put : round.isPut = true)
      (answered : round.answer.1 = .ok chosen) (member : option ∈ round.question.options)
      (same : option.lineage = chosen.lineage) :
      Selected round (.ok chosen)
        { round.state with decisions := round.state.decisions + 1, source := round.answer.2 }

variable {round : Round σ} {outcome : Outcome ThreadId} {asked : Scheduler σ}

theorem Round.fails_limit_iff {limit : Nat} :
    round.Fails (.fault (.decisionLimitExceeded limit)) ↔
      round.answer.1 = .error (.decisionLimitExceeded limit) := by
  constructor
  · intro fails
    cases fails with
    | refused answered => exact answered
  · exact .refused

private theorem Round.Fails.unique {first second : Halt} (fails : round.Fails first)
    (again : round.Fails second) : first = second := by
  cases fails with
  | refused answered =>
      cases again with
      | refused other =>
          cases answered.symm.trans other
          rfl
      | foreign other absent => cases answered.symm.trans other
  | foreign answered absent =>
      cases again with
      | refused other => cases answered.symm.trans other
      | foreign other absent =>
          cases answered.symm.trans other
          rfl

private theorem selected_ask (several : round.isChoice = true) :
    Selected round (round.state.ask round.question).1 (round.state.ask round.question).2 := by
  unfold ask
  dsimp only
  split
  next spent =>
    refine .exceeded several ?_
    rw [Round.isPut, several, Bool.true_and, decide_eq_false_iff_not]
    exact Nat.not_lt.2 (Nat.le_of_lt_succ spent)
  next within =>
    have put : round.isPut = true := by
      rw [Round.isPut, several, Bool.true_and, decide_eq_true_iff]
      exact Nat.not_lt.1 within
    split
    next fault source answered =>
      have selected := Selected.failed put (.refused (congrArg Prod.fst answered))
      rw [Round.answer, answered] at selected
      exact selected
    next chosen source answered =>
      split
      next offered =>
        obtain ⟨option, member, same⟩ := List.any_eq_true.1 offered
        have selected := Selected.chosen put (congrArg Prod.fst answered) member
          ((ThreadId.same_iff_lineage _ _).1 same)
        rw [Round.answer, answered] at selected
        exact selected
      next absent =>
        have foreign : ∀ option ∈ round.question.options, option.lineage ≠ chosen.lineage :=
          fun option member same => absent (List.any_eq_true.2
            ⟨option, member, (ThreadId.same_iff_lineage _ _).2 same⟩)
        have selected := Selected.failed put (.foreign (congrArg Prod.fst answered) foreign)
        rw [Round.answer, answered] at selected
        exact selected

theorem selected_select (round : Round σ) (nonempty : round.state.threads.runnable ≠ []) :
    Selected round (round.state.select round.label round.state.threads.runnable).1
      (round.state.select round.label round.state.threads.runnable).2 := by
  have asked : round.isChoice = true → _ := selected_ask
  unfold Round.isChoice Round.question at asked
  have alone : ∀ next, round.state.threads.runnable = [next] →
      Selected round (.ok next) round.state := fun next => .only
  revert nonempty asked alone
  generalize round.state.threads.runnable = options
  intro nonempty asked alone
  match options with
  | [] => exact absurd rfl nonempty
  | [only] => exact alone only rfl
  | first :: second :: rest =>
      exact asked (decide_eq_true (Nat.le_add_left 2 _))

/-- Nobody runs, so the next thread can be chosen. -/
structure Idle (state : Scheduler σ) : Prop where
  coherent : state.Coherent
  nobody : ∀ thread, state.threads.state? thread ≠ some .running

/-- A choice that begins in a state, with its rounds and what it comes to. -/
inductive Picks (label : String) :
    Scheduler σ → List (Round σ) → Outcome Schedule × Scheduler σ → Prop
  | stalled {state : Scheduler σ} (idle : state.Idle) (none : state.threads.runnable = []) :
      Picks label state [] (state.stalled, state)
  | halted {state asked : Scheduler σ} {halt : Halt} (idle : state.Idle)
      (selected : Selected ⟨label, state⟩ (.error halt) asked) :
      Picks label state [⟨label, state⟩] (.error halt, asked)
  | resumed {state asked resumed : Scheduler σ} {next : ThreadId} (idle : state.Idle)
      (selected : Selected ⟨label, state⟩ (.ok next) asked)
      (promoted : asked.promote next = (.ok true, resumed)) :
      Picks label state [⟨label, state⟩] (.ok (.resume next), resumed)
  | again {state asked demoted : Scheduler σ} {next : ThreadId} {rounds : List (Round σ)}
      {result : Outcome Schedule × Scheduler σ} (idle : state.Idle)
      (selected : Selected ⟨label, state⟩ (.ok next) asked)
      (promoted : asked.promote next = (.ok false, demoted))
      (rest : Picks label demoted rounds result) :
      Picks label state (⟨label, state⟩ :: rounds) result

/-- What a round selects was runnable, and nothing but the source and the count changed. -/
theorem Selected.effect (selected : Selected round outcome asked) :
    (∃ decisions source, asked =
      { round.state with decisions := decisions, source := source }) ∧
    ∀ next, outcome = .ok next → round.state.threads.state? next = some .runnable := by
  cases selected with
  | @only next alone =>
      refine ⟨⟨_, _, rfl⟩, ?_⟩
      rintro chosen ⟨⟩
      exact RunStates.mem_runnable (alone ▸ List.mem_singleton_self next)
  | exceeded several spent => exact ⟨⟨_, _, rfl⟩, nofun⟩
  | failed put fails => exact ⟨⟨_, _, rfl⟩, nofun⟩
  | chosen put answered member same =>
      refine ⟨⟨_, _, rfl⟩, ?_⟩
      rintro chosen ⟨⟩
      rw [← round.state.threads.state?_congr same]
      exact RunStates.mem_runnable member

theorem Idle.of_selected (idle : round.state.Idle) (selected : Selected round outcome asked) :
    asked.Idle := by
  obtain ⟨⟨decisions, source, rfl⟩, -⟩ := selected.effect
  exact ⟨idle.coherent.of_asked decisions source, idle.nobody⟩

/-- A round that finds somebody runnable, together with the list of rounds. -/
private theorem round_eq {state : Scheduler σ} (nonempty : state.threads.runnable ≠ [])
    (label : String) (rounds : Nat) :
    (roundsWithin (rounds + 1) state label, pickWithin (rounds + 1) state label) =
      match state.select label state.threads.runnable with
      | (.error halt, asked) => ([⟨label, state⟩], .error halt, asked)
      | (.ok next, asked) =>
          match asked.promote next with
          | (.error halt, halted) => ([⟨label, state⟩], .error halt, halted)
          | (.ok true, resumed) => ([⟨label, state⟩], .ok (.resume next), resumed)
          | (.ok false, demoted) =>
              (⟨label, state⟩ :: roundsWithin rounds demoted label,
                pickWithin rounds demoted label) := by
  rw [roundsWithin, pickWithin]
  revert nonempty
  cases state.threads.runnable with
  | nil => exact fun impossible => absurd rfl impossible
  | cons first others =>
      intro _
      dsimp only
      match state.select label (first :: others) with
      | (.error halt, asked) => rfl
      | (.ok next, asked) =>
          dsimp only
          match asked.promote next with
          | (.error halt, halted) => rfl
          | (.ok true, resumed) => rfl
          | (.ok false, demoted) => rfl

/-- The selected thread runs, or it is blocked and there is one runnable thread less. -/
theorem Idle.promote (round : Round σ) {next : ThreadId}
    (idle : round.state.Idle) (selected : Selected round (.ok next) asked) :
    (∃ resumed, asked.promote next = (.ok true, resumed)) ∨
    ∃ demoted, asked.promote next = (.ok false, demoted) ∧ demoted.Idle ∧
      demoted.threads.runnable.length < round.state.threads.runnable.length := by
  have runnable := selected.effect.2 next rfl
  have askedIdle := idle.of_selected selected
  obtain ⟨decisions, source, rfl⟩ := selected.effect.1
  rcases askedIdle.coherent.promote askedIdle.nobody runnable with
    ⟨monitors, -, promoted, -⟩ | ⟨lock, -, -, promoted, demoted, turned⟩
  · exact .inl ⟨_, promoted⟩
  · refine .inr ⟨_, promoted, ⟨demoted, ?_⟩, RunStates.length_runnable_lt runnable _⟩
    intro thread runs
    rw [turned] at runs
    split at runs
    · cases runs
    · exact askedIdle.nobody thread runs

/-- The choice goes on in rounds until a thread runs, the choice fails or nobody is runnable. -/
theorem Idle.picks_within (label : String) (rounds : Nat) :
    ∀ {state : Scheduler σ}, state.Idle → state.threads.runnable.length ≤ rounds →
      Picks label state (roundsWithin rounds state label) (pickWithin rounds state label) := by
  -- A repeated round has one runnable thread less, so the rounds suffice.
  induction rounds with
  | zero =>
      intro state idle few
      exact .stalled idle (List.eq_nil_of_length_eq_zero (Nat.le_zero.1 few))
  | succ rounds inductionHypothesis =>
      intro state idle few
      by_cases none : state.threads.runnable = []
      · rw [roundsWithin, pickWithin, none]
        exact .stalled idle none
      · have selected := selected_select ⟨label, state⟩ none
        obtain ⟨sameRounds, sameResult⟩ := Prod.mk.inj (round_eq none label rounds)
        rw [sameRounds, sameResult]
        revert selected
        dsimp only
        match state.select label state.threads.runnable with
        | (.error halt, asked) => exact fun selected => .halted idle selected
        | (.ok next, asked) =>
            intro selected
            dsimp only
            rcases Idle.promote ⟨label, state⟩ idle selected with
              ⟨resumed, promoted⟩ | ⟨demoted, promoted, again, fewer⟩
            · rw [promoted]
              exact .resumed idle selected promoted
            · rw [promoted]
              exact .again idle selected promoted
                (inductionHypothesis again (Nat.le_of_lt_succ (Nat.lt_of_lt_of_le fewer few)))

theorem Idle.picks {state : Scheduler σ} (idle : state.Idle) (label : String) :
    Picks label state (roundsWithin state.threads.runnable.length state label)
      (state.pick label) :=
  idle.picks_within label _ (Nat.le_refl _)

variable {label : String} {state : Scheduler σ} {rounds : List (Round σ)}
  {result : Outcome Schedule × Scheduler σ}

theorem Picks.idle_of_mem (picks : Picks label state rounds result)
    (member : round ∈ rounds) : round.state.Idle ∧ round.label = label := by
  induction picks with
  | stalled idle none => cases member
  | halted idle selected =>
      obtain rfl := List.mem_singleton.1 member
      exact ⟨idle, rfl⟩
  | resumed idle selected promoted =>
      obtain rfl := List.mem_singleton.1 member
      exact ⟨idle, rfl⟩
  | again idle selected promoted rest inductionHypothesis =>
      rcases List.mem_cons.1 member with rfl | later
      · exact ⟨idle, rfl⟩
      · exact inductionHypothesis later

theorem Selected.of_fails (selected : Selected round outcome asked) (put : round.isPut = true)
    {halt : Halt} (fails : round.Fails halt) : outcome = .error halt := by
  cases selected with
  | only alone =>
      rw [Round.isPut, Round.isChoice, alone] at put
      cases put
  | exceeded several spent =>
      rw [spent] at put
      cases put
  | failed _ again => rw [again.unique fails]
  | chosen _ answered member same =>
      cases fails with
      | refused again => cases answered.symm.trans again
      | foreign again absent =>
          cases answered.symm.trans again
          exact absurd same (absent _ member)

/-- A choice that fails lets nobody run. -/
theorem Picks.idle_of_error (picks : Picks label state rounds result) {halt : Halt}
    (halts : result.1 = .error halt) : result.2.Idle := by
  induction picks with
  | stalled idle none => exact idle
  | halted idle selected => exact idle.of_selected selected
  | resumed idle selected promoted => cases halts
  | again idle selected promoted rest inductionHypothesis => exact inductionHypothesis halts

/-- The choice ends with the first answer that fails. -/
theorem Picks.of_fails (picks : Picks label state rounds result) (member : round ∈ rounds)
    (put : round.isPut = true) {halt : Halt} (fails : round.Fails halt) : result.1 = .error halt := by
  induction picks with
  | stalled idle none => cases member
  | halted idle selected =>
      obtain rfl := List.mem_singleton.1 member
      exact congrArg _ (Except.error.inj (selected.of_fails put fails))
  | resumed idle selected promoted =>
      obtain rfl := List.mem_singleton.1 member
      cases selected.of_fails put fails
  | again idle selected promoted rest inductionHypothesis =>
      rcases List.mem_cons.1 member with rfl | later
      · cases selected.of_fails put fails
      · exact inductionHypothesis later

/-! ## The count of decisions and the source -/

/-- The source is asked what the rounds put, one after the other. -/
inductive AskedInTurn : σ → List (Round σ) → σ → Prop
  | nil (source : σ) : AskedInTurn source [] source
  | cons (round : Round σ) {rounds : List (Round σ)} {last : σ}
      (rest : AskedInTurn round.answer.2 rounds last) :
      AskedInTurn round.state.source (round :: rounds) last

private theorem AskedInTurn.append {first middle last : σ} {early late : List (Round σ)}
    (before : AskedInTurn first early middle) (behind : AskedInTurn middle late last) :
    AskedInTurn first (early ++ late) last := by
  induction before with
  | nil source => exact behind
  | cons round rest inductionHypothesis => exact .cons round (inductionHypothesis behind)

/-- What some rounds made of the count of decisions and of the source. -/
structure Asks (before after : Scheduler σ) (rounds : List (Round σ)) : Prop where
  limit : after.maxDecisions = before.maxDecisions
  count : after.decisions = before.decisions + (choices rounds).length
  inTurn : AskedInTurn before.source (consultations rounds) after.source
  within : consultations rounds =
    (choices rounds).take (before.maxDecisions - before.decisions)

theorem Asks.of_same {before after : Scheduler σ} (limit : after.maxDecisions = before.maxDecisions)
    (count : after.decisions = before.decisions) (source : after.source = before.source) :
    Asks before after [] where
  limit := limit
  count := count
  inTurn := source ▸ .nil _
  within := List.take_nil.symm

theorem Asks.trans {before middle after : Scheduler σ} {early late : List (Round σ)}
    (first : Asks before middle early) (second : Asks middle after late) :
    Asks before after (early ++ late) where
  limit := second.limit.trans first.limit
  count := by
    rw [second.count, first.count, choices, choices, choices, List.filter_append,
      List.length_append, Nat.add_assoc]
  inTurn := by
    rw [consultations, List.filter_append]
    exact first.inTurn.append second.inTurn
  within := by
    have left := first.within
    have right := second.within
    rw [first.limit, first.count, ← Nat.sub_sub] at right
    rw [consultations, choices, List.filter_append, List.filter_append, List.take_append]
    rw [consultations, choices] at left right
    rw [left, right]
    rfl

private theorem Selected.asks (selected : Selected round outcome asked) :
    Asks round.state asked [round] := by
  have put : ∀ {source : σ}, round.isPut = true → source = round.answer.2 →
      Asks round.state { round.state with
        decisions := round.state.decisions + 1, source := source } [round] := by
    rintro source put rfl
    obtain ⟨several, within⟩ := (Bool.and_eq_true_iff).1 put
    have listed : choices [round] = [round] := List.filter_cons_of_pos several
    have consulted : consultations [round] = [round] := List.filter_cons_of_pos put
    refine ⟨rfl, ?_, ?_, ?_⟩
    · rw [listed]
      rfl
    · rw [consulted]
      exact .cons round (.nil _)
    · rw [listed, consulted]
      exact (List.take_of_length_le (Nat.sub_pos_of_lt (of_decide_eq_true within))).symm
  cases selected with
  | only alone =>
      have single : round.isChoice = false := by
        rw [Round.isChoice, alone]
        rfl
      have listed : choices [round] = [] := List.filter_cons_of_neg (by rw [single]; nofun)
      have consulted : consultations [round] = [] :=
        List.filter_cons_of_neg (by rw [Round.isPut, single]; nofun)
      refine ⟨rfl, ?_, ?_, ?_⟩
      · rw [listed]
        rfl
      · rw [consulted]
        exact .nil _
      · rw [listed, consulted, List.take_nil]
  | exceeded several spent =>
      have listed : choices [round] = [round] := List.filter_cons_of_pos several
      have consulted : consultations [round] = [] :=
        List.filter_cons_of_neg (by rw [spent]; nofun)
      refine ⟨rfl, ?_, ?_, ?_⟩
      · rw [listed]
        rfl
      · rw [consulted]
        exact .nil _
      · rw [listed, consulted]
        have none : round.state.maxDecisions - round.state.decisions = 0 := by
          rw [Round.isPut, several, Bool.true_and, decide_eq_false_iff_not] at spent
          exact Nat.sub_eq_zero_of_le (Nat.not_lt.1 spent)
        rw [none]
        rfl
  | failed yes fails => exact put yes rfl
  | chosen yes answered member same => exact put yes rfl

private theorem Selected.asks_promote {next : ThreadId} {after : Scheduler σ} {runs : Outcome Bool}
    (selected : Selected round (.ok next) asked) (idle : round.state.Idle)
    (promoted : asked.promote next = (runs, after)) :
    Asks round.state after [round] ∧ after.decisions = asked.decisions := by
  obtain ⟨threads, effect, -⟩ := promote_eq (idle.of_selected selected).nobody next
  rw [promoted] at effect
  obtain rfl : after = _ := effect
  exact ⟨selected.asks.trans (.of_same rfl rfl rfl), rfl⟩

theorem Picks.asks (picks : Picks label state rounds result) : Asks state result.2 rounds := by
  induction picks with
  | stalled idle none => exact .of_same rfl rfl rfl
  | halted idle selected => exact selected.asks
  | resumed idle selected promoted => exact (selected.asks_promote idle promoted).1
  | again idle selected promoted rest inductionHypothesis =>
      exact (selected.asks_promote idle promoted).1.trans inductionHypothesis

private theorem Selected.exceeds_iff (selected : Selected round outcome asked)
    (room : round.state.decisions ≤ round.state.maxDecisions) :
    round.state.maxDecisions < asked.decisions ↔
      outcome = .error (.fault (.decisionLimitExceeded round.state.maxDecisions)) ∧
        (round.isPut = true →
          ¬ round.Fails (.fault (.decisionLimitExceeded round.state.maxDecisions))) := by
  have enough : round.isPut = true →
      ¬ round.state.maxDecisions < round.state.decisions + 1 := fun put =>
    Nat.not_lt.2 (of_decide_eq_true (Bool.and_eq_true_iff.1 put).2)
  cases selected with
  | only alone => exact ⟨fun exceeds => absurd room (Nat.not_le.2 exceeds), nofun⟩
  | exceeded several spent =>
      refine ⟨fun _ => ⟨rfl, fun put => ?_⟩, fun _ => ?_⟩
      · rw [spent] at put
        cases put
      · rw [Round.isPut, several, Bool.true_and, decide_eq_false_iff_not, Nat.not_lt] at spent
        exact Nat.lt_succ_of_le spent
  | failed put fails =>
      refine ⟨fun exceeds => absurd exceeds (enough put), ?_⟩
      rintro ⟨equal, own⟩
      cases equal
      exact absurd fails (own put)
  | chosen put answered member same =>
      exact ⟨fun exceeds => absurd exceeds (enough put), nofun⟩

private theorem Selected.room {next : ThreadId} (selected : Selected round (.ok next) asked)
    (room : round.state.decisions ≤ round.state.maxDecisions) :
    asked.decisions ≤ round.state.maxDecisions :=
  Nat.not_lt.1 fun exceeds => nomatch ((selected.exceeds_iff room).1 exceeds).1

/-- The limit is reported where it is exceeded, unless the source itself answers so. -/
theorem Picks.exceeds_iff (picks : Picks label state rounds result)
    (room : state.decisions ≤ state.maxDecisions) :
    state.maxDecisions < result.2.decisions ↔
      result.1 = .error (.fault (.decisionLimitExceeded state.maxDecisions)) ∧
      ∀ round ∈ rounds, round.isPut = true →
        ¬ round.Fails (.fault (.decisionLimitExceeded state.maxDecisions)) := by
  induction picks with
  | @stalled state idle none =>
      refine ⟨fun exceeds => absurd room (Nat.not_le.2 exceeds), fun reported => ?_⟩
      have stalled := reported.1
      unfold Scheduler.stalled at stalled
      split at stalled
      · cases stalled
      · split at stalled <;> cases stalled
  | halted idle selected =>
      rw [List.forall_mem_singleton, Except.error.injEq]
      exact (selected.exceeds_iff room).trans (and_congr_left' (by rw [Except.error.injEq]))
  | resumed idle selected promoted =>
      have same := (selected.asks_promote idle promoted).2
      refine ⟨fun exceeds => ?_, nofun⟩
      exact absurd (selected.room room) (Nat.not_le.2 (same ▸ exceeds))
  | again idle selected promoted rest inductionHypothesis =>
      obtain ⟨asks, same⟩ := selected.asks_promote idle promoted
      have limit := asks.limit
      have onward := inductionHypothesis (by rw [same, limit]; exact selected.room room)
      rw [limit] at onward
      rw [onward, List.forall_mem_cons]
      refine and_congr_right' ⟨fun own => ⟨?_, own⟩, fun own => own.2⟩
      intro put fails
      cases selected.of_fails put fails

end Scheduler

end ScheduleSearch
