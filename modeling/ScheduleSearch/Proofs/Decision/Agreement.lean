import Mathlib.Data.List.Induction
import ScheduleSearch.Decision.Replay
import ScheduleSearch.Proofs.Decision.Executions

/-!
# What a replay accepts

A replay accepts an execution exactly if it asks what the trace has recorded, question by
question and to the end.  Otherwise it reports the first step that differs and the kind of the
difference.

As long as the questions agree, the replay has one step behind it for each of them; from the
first difference on it stands still.  `Followed` says that of a list of questions put at any
step, and the induction is on that list.
-/

namespace ScheduleSearch

/-- The recorded decision is one for the question: it has the same label, the same names in the
same order, and a choice among them. -/
structure TraceStep.Fits (step : TraceStep) (question : Question) : Prop where
  label : question.label = step.label
  options : question.names = step.options
  choice : step.choice < question.options.length

/-- The questions are those of the trace, one for each step. -/
structure Trace.Agrees (recorded : Trace) (questions : List Question) : Prop where
  length : questions.length = recorded.length
  fits : ∀ (index : Nat) (step : TraceStep) (question : Question),
    recorded[index]? = some step → questions[index]? = some question → step.Fits question

/-- What is different at a step of a trace, where a question is put or the execution ends. -/
inductive Trace.Differs (recorded : Trace) (number : Nat) :
    Option Question → Divergence → Prop
  | pastTheEnd {question : Question} (beyond : recorded[number]? = none) :
      Differs recorded number (some question) (.pastTheEnd question.label)
  | otherLabel {question : Question} {step : TraceStep} (found : recorded[number]? = some step)
      (different : question.label ≠ step.label) :
      Differs recorded number (some question) (.otherLabel question.label step.label)
  | otherOptions {question : Question} {step : TraceStep}
      (found : recorded[number]? = some step) (label : question.label = step.label)
      (different : question.names ≠ step.options) :
      Differs recorded number (some question) (.otherOptions question.names step.options)
  | choiceOutOfRange {question : Question} {step : TraceStep}
      (found : recorded[number]? = some step) (label : question.label = step.label)
      (options : question.names = step.options)
      (beyond : question.options.length ≤ step.choice) :
      Differs recorded number (some question) (.choiceOutOfRange step.choice)
  | endedEarly (more : number < recorded.length) :
      Differs recorded number none (.endedEarly number recorded.length)

private theorem Trace.Differs.not_fits {recorded : Trace} {number : Nat} {question : Question}
    {divergence : Divergence} (differs : recorded.Differs number (some question) divergence)
    {step : TraceStep} (found : recorded[number]? = some step) : ¬ step.Fits question := by
  intro fits
  cases differs with
  | pastTheEnd beyond =>
      rw [beyond] at found
      cases found
  | otherLabel here different =>
      obtain rfl := Option.some.inj (here.symm.trans found)
      exact different fits.label
  | otherOptions here label different =>
      obtain rfl := Option.some.inj (here.symm.trans found)
      exact different fits.options
  | choiceOutOfRange here label options beyond =>
      obtain rfl := Option.some.inj (here.symm.trans found)
      exact Nat.not_lt.2 beyond fits.choice

private theorem Trace.Differs.not_agrees {recorded : Trace} {questions : List Question}
    {number : Nat}
    {divergence : Divergence} (differs : recorded.Differs number questions[number]? divergence) :
    ¬ recorded.Agrees questions := by
  intro agrees
  by_cases asked : number < questions.length
  · have there := List.getElem?_eq_getElem asked
    have found := List.getElem?_eq_getElem (agrees.length ▸ asked)
    rw [there] at differs
    exact differs.not_fits found (agrees.fits number _ _ found there)
  · rw [List.getElem?_eq_none (Nat.not_lt.1 asked)] at differs
    cases differs with
    | endedEarly more => exact asked (agrees.length ▸ more)

namespace Replay

private theorem follow_cases (replay : Replay) (question : Question) :
    (∃ step chosen, replay.recorded[replay.step]? = some step ∧ step.Fits question ∧
      question.options[step.choice]? = some chosen ∧ replay.follow question = .ok chosen) ∨
    ∃ divergence, replay.recorded.Differs replay.step (some question) divergence ∧
      replay.follow question = .error divergence := by
  unfold follow
  cases found : replay.recorded[replay.step]? with
  | none => exact .inr ⟨_, .pastTheEnd found, rfl⟩
  | some step =>
      dsimp only
      rw [TraceStep.answer]
      by_cases label : question.label = step.label
      · rw [if_neg (by simp [label])]
        by_cases options : question.names = step.options
        · rw [if_neg (by simp [options])]
          cases chosen : question.options[step.choice]? with
          | none =>
              exact .inr ⟨_, .choiceOutOfRange found label options
                (List.getElem?_eq_none_iff.1 chosen), rfl⟩
          | some thread =>
              have within := (List.getElem?_eq_some_iff.1 chosen).1
              exact .inl ⟨step, thread, rfl, ⟨label, options, within⟩, chosen, rfl⟩
        · rw [if_pos (by simp [options])]
          exact .inr ⟨_, .otherOptions found label options, rfl⟩
      · rw [if_pos (by simp [Ne.symm label])]
        exact .inr ⟨_, .otherLabel found label, rfl⟩

private theorem decide_of_follow (replay : Replay) (steady : replay.deferred = none)
    {question : Question} {first : ThreadId} (offered : question.options.head? = some first) :
    replay.decide question =
      match replay.follow question with
      | .ok chosen => (.ok chosen, { replay with step := replay.step + 1 })
      | .error divergence =>
          (.ok first, { replay with deferred := some (replay.diverged divergence) }) := by
  obtain ⟨rest, shape⟩ := List.head?_eq_some_iff.1 offered
  unfold decide
  rw [shape, steady]
  rfl

private theorem decide_of_deferred (replay : Replay) (lost : replay.deferred.isSome = true)
    {question : Question} {first : ThreadId} (offered : question.options.head? = some first) :
    replay.decide question = (.ok first, replay) := by
  obtain ⟨rest, shape⟩ := List.head?_eq_some_iff.1 offered
  unfold decide
  rw [shape]
  exact if_pos lost

/-- What comes of questions that are put from a step of the trace on: so many of them are
answered as is recorded, and the others with their first option. -/
structure Followed (recorded : Trace) (start : Nat) (questions : List Question)
    (answers : List (Except Fault ThreadId)) (count : Nat) : Prop where
  length : answers.length = questions.length
  within : count ≤ questions.length
  agrees : ∀ (index : Nat) (question : Question), index < count →
    questions[index]? = some question →
    ∃ step : TraceStep, recorded[start + index]? = some step ∧ step.Fits question ∧
      answers[index]? = question.options[step.choice]?.map .ok
  firsts : ∀ (index : Nat) (question : Question), count ≤ index →
    questions[index]? = some question → answers[index]? = question.options.head?.map .ok

variable {recorded : Trace} {start count : Nat} {question : Question}
  {questions rest : List Question} {answers : List (Except Fault ThreadId)}

private theorem Followed.nil (recorded : Trace) (start : Nat) : Followed recorded start [] [] 0 :=
  ⟨rfl, Nat.le_refl 0, nofun, nofun⟩

private theorem Followed.cons_fits (followed : Followed recorded (start + 1) rest answers count)
    {step : TraceStep} {chosen : ThreadId} (found : recorded[start]? = some step)
    (fits : step.Fits question) (choice : question.options[step.choice]? = some chosen) :
    Followed recorded start (question :: rest) (.ok chosen :: answers) (count + 1) where
  length := congrArg (· + 1) followed.length
  within := Nat.succ_le_succ followed.within
  agrees := by
    intro index asked below there
    cases index with
    | zero =>
        obtain rfl := Option.some.inj there
        exact ⟨step, found, fits, by rw [choice]; rfl⟩
    | succ index =>
        have later := followed.agrees index asked (Nat.lt_of_succ_lt_succ below) there
        rw [Nat.add_right_comm] at later
        exact later
  firsts := by
    intro index asked beyond there
    cases index with
    | zero => cases beyond
    | succ index => exact followed.firsts index asked (Nat.le_of_succ_le_succ beyond) there

private theorem Followed.cons_first (followed : Followed recorded start rest answers 0)
    {first : ThreadId} (offered : question.options.head? = some first) :
    Followed recorded start (question :: rest) (.ok first :: answers) 0 where
  length := congrArg (· + 1) followed.length
  within := Nat.zero_le _
  agrees := nofun
  firsts := by
    intro index asked _ there
    cases index with
    | zero =>
        obtain rfl := Option.some.inj there
        rw [offered]
        rfl
    | succ index => exact followed.firsts index asked (Nat.zero_le index) there

private theorem askAll_of_deferred (replay : Replay) (lost : replay.deferred.isSome = true)
    (recorded : Trace) (start : Nat) {questions : List Question}
    (offered : ∀ question ∈ questions, question.options ≠ []) :
    (DecisionSource.askAll replay questions).2 = replay ∧
      Followed recorded start questions (DecisionSource.askAll replay questions).1 0 := by
  induction questions with
  | nil => exact ⟨rfl, .nil recorded start⟩
  | cons question rest inductionHypothesis =>
      obtain ⟨kept, followed⟩ := inductionHypothesis
        (fun other member => offered other (List.mem_cons_of_mem _ member))
      obtain ⟨first, head⟩ :=
        Option.isSome_iff_exists.1 (List.isSome_head?.2 (offered question List.mem_cons_self))
      have answered : DecisionSource.decide replay question = (.ok first, replay) :=
        replay.decide_of_deferred lost head
      rw [DecisionSource.askAll, answered]
      exact ⟨kept, followed.cons_first head⟩

/-- From any step on the trace is followed as far as the questions agree with it. -/
theorem askAll_follows (recorded : Trace) (finished : Bool) {questions : List Question}
    (offered : ∀ question ∈ questions, question.options ≠ []) (start : Nat) :
    ∃ count,
      Followed recorded start questions
        (DecisionSource.askAll (⟨recorded, start, finished, none⟩ : Replay) questions).1 count ∧
      ((count = questions.length ∧
        (DecisionSource.askAll (⟨recorded, start, finished, none⟩ : Replay) questions).2 =
          ⟨recorded, start + count, finished, none⟩) ∨
      ∃ question divergence, questions[count]? = some question ∧
        recorded.Differs (start + count) (some question) divergence ∧
        (DecisionSource.askAll (⟨recorded, start, finished, none⟩ : Replay) questions).2 =
          ⟨recorded, start + count, finished,
            some (.replayDiverged (start + count) divergence.text)⟩) := by
  -- A question that fits moves the start on; the first one that does not ends the induction.
  induction questions generalizing start with
  | nil => exact ⟨0, .nil recorded start, .inl ⟨rfl, rfl⟩⟩
  | cons question rest inductionHypothesis =>
      have offeredRest : ∀ question ∈ rest, question.options ≠ [] :=
        fun other member => offered other (List.mem_cons_of_mem _ member)
      obtain ⟨first, head⟩ :=
        Option.isSome_iff_exists.1 (List.isSome_head?.2 (offered question List.mem_cons_self))
      have decided := decide_of_follow ⟨recorded, start, finished, none⟩ rfl head
      rcases follow_cases ⟨recorded, start, finished, none⟩ question with
        ⟨step, chosen, found, fits, choice, follows⟩ | ⟨divergence, differs, departs⟩
      · rw [follows] at decided
        have answered : DecisionSource.decide (⟨recorded, start, finished, none⟩ : Replay)
            question = (.ok chosen, ⟨recorded, start + 1, finished, none⟩) := decided
        obtain ⟨count, followed, ending⟩ := inductionHypothesis offeredRest (start + 1)
        rw [DecisionSource.askAll, answered]
        refine ⟨count + 1, followed.cons_fits found fits choice, ?_⟩
        rw [Nat.add_right_comm, Nat.add_assoc] at ending
        rcases ending with ⟨all, arrived⟩ | ⟨other, divergence, there, differs, arrived⟩
        · exact .inl ⟨congrArg (· + 1) all, arrived⟩
        · exact .inr ⟨other, divergence, there, differs, arrived⟩
      · rw [departs] at decided
        have answered : DecisionSource.decide (⟨recorded, start, finished, none⟩ : Replay)
            question = (.ok first, ⟨recorded, start, finished,
              some (.replayDiverged start divergence.text)⟩) := decided
        obtain ⟨kept, followed⟩ := askAll_of_deferred ⟨recorded, start, finished,
          some (.replayDiverged start divergence.text)⟩ rfl recorded start offeredRest
        rw [DecisionSource.askAll, answered]
        exact ⟨0, followed.cons_first head, .inr ⟨question, divergence, rfl, differs, kept⟩⟩

private theorem Followed.count_le (followed : Followed recorded 0 questions answers count) :
    count ≤ recorded.length := by
  cases count with
  | zero => exact Nat.zero_le _
  | succ count =>
      have within : count < questions.length := followed.within
      obtain ⟨step, found, -⟩ :=
        followed.agrees count _ (Nat.lt_succ_self count) (List.getElem?_eq_getElem within)
      rw [Nat.zero_add] at found
      exact (List.getElem?_eq_some_iff.1 found).1

/-- As far as a trace was followed the questions are those of the trace. -/
theorem Followed.agrees_take (followed : Followed recorded 0 questions answers count) :
    Trace.Agrees (recorded.take count) (questions.take count) where
  length := by
    rw [List.length_take_of_le followed.within, List.length_take_of_le followed.count_le]
  fits := by
    intro index step question found there
    have below : index < count := by
      have inside := (List.getElem?_eq_some_iff.1 there).1
      rw [List.length_take_of_le followed.within] at inside
      exact inside
    rw [List.getElem?_take_of_lt below] at found there
    obtain ⟨other, here, fits, -⟩ := followed.agrees index question below there
    rw [Nat.zero_add, found] at here
    exact Option.some.inj here ▸ fits

/-- Every question is answered with one of its options. -/
theorem Followed.offered (followed : Followed recorded start questions answers count)
    (offered : ∀ question ∈ questions, question.options ≠ []) (index : Nat) {question : Question}
    (there : questions[index]? = some question) :
    ∃ chosen ∈ question.options, answers[index]? = some (.ok chosen) := by
  by_cases below : index < count
  · obtain ⟨step, -, fits, answered⟩ := followed.agrees index question below there
    rw [List.getElem?_eq_getElem fits.choice] at answered
    exact ⟨_, List.getElem_mem fits.choice, answered⟩
  · have nonempty := offered question (List.mem_of_getElem? there)
    have answered := followed.firsts index question (Nat.not_lt.1 below) there
    rw [List.head?_eq_some_head nonempty] at answered
    exact ⟨_, List.head_mem nonempty, answered⟩

/-- At the end of an execution without a difference the trace must have ended as well. -/
theorem finish_steady (recorded : Trace) (step : Nat) (finished : Bool) :
    (finish ⟨recorded, step, finished, none⟩).1 =
      if step < recorded.length then
        .error (.replayDiverged step (Divergence.endedEarly step recorded.length).text)
      else .ok () := by
  unfold finish
  dsimp only
  split <;> rfl

private theorem recorded_decide (replay : Replay) (question : Question) :
    (replay.decide question).2.recorded = replay.recorded := by
  unfold decide
  split
  · rfl
  · split
    · rfl
    · split <;> rfl

private theorem recorded_askAll (replay : Replay) (questions : List Question) :
    (DecisionSource.askAll replay questions).2.recorded = replay.recorded := by
  induction questions generalizing replay with
  | nil => rfl
  | cons question rest inductionHypothesis =>
      rw [DecisionSource.askAll]
      exact (inductionHypothesis _).trans (replay.recorded_decide question)

private theorem execute_rewinds (replay : Replay) (questions : List Question) :
    (Explorer.execute replay questions).2 = ⟨replay.recorded, 0, true, none⟩ := by
  rw [← replay.recorded_askAll questions]
  change (finish _).2 = _
  unfold finish
  dsimp only
  split
  · rfl
  · split <;> rfl

private theorem afterAll_eq (recorded : Trace) (earlier : List (List Question)) :
    ∃ finished, Explorer.afterAll (ofTrace recorded) earlier =
      ⟨recorded, 0, finished, none⟩ := by
  induction earlier using List.reverseRecOn with
  | nil => exact ⟨false, rfl⟩
  | append_singleton earlier last inductionHypothesis =>
      obtain ⟨finished, before⟩ := inductionHypothesis
      refine ⟨true, ?_⟩
      rw [Explorer.afterAll, List.foldl_append]
      change (Explorer.execute (Explorer.afterAll (ofTrace recorded) earlier) last).2 = _
      rw [before]
      exact execute_rewinds _ last

private theorem decide_finished (replay : Replay) (finished : Bool) (question : Question) :
    ({ replay with finished := finished } : Replay).decide question =
      ((replay.decide question).1, { (replay.decide question).2 with finished := finished }) := by
  have same : ({ replay with finished := finished } : Replay).follow question =
    replay.follow question := rfl
  unfold decide
  split
  · rfl
  · rw [same]
    dsimp only
    split
    · rfl
    · cases replay.follow question <;> rfl

private theorem askAll_finished (replay : Replay) (finished : Bool) (questions : List Question) :
    DecisionSource.askAll ({ replay with finished := finished } : Replay) questions =
      ((DecisionSource.askAll replay questions).1,
        { (DecisionSource.askAll replay questions).2 with finished := finished }) := by
  induction questions generalizing replay with
  | nil => rfl
  | cons question rest inductionHypothesis =>
      have answered : DecisionSource.decide ({ replay with finished := finished } : Replay)
          question = ((replay.decide question).1,
            { (replay.decide question).2 with finished := finished }) :=
        replay.decide_finished finished question
      rw [DecisionSource.askAll, answered, DecisionSource.askAll]
      dsimp only
      rw [inductionHypothesis]
      rfl

private theorem execute_finished (replay : Replay) (finished : Bool) (questions : List Question) :
    (Explorer.execute ({ replay with finished := finished } : Replay) questions).1 =
      (Explorer.execute replay questions).1 := by
  unfold Explorer.execute
  rw [askAll_finished]
  rfl

private theorem execute_afterAll (recorded : Trace) (earlier : List (List Question))
    (questions : List Question) :
    (Explorer.execute (Explorer.afterAll (ofTrace recorded) earlier) questions).1 =
      (Explorer.execute (ofTrace recorded) questions).1 := by
  obtain ⟨finished, again⟩ := afterAll_eq recorded earlier
  rw [again]
  exact execute_finished (ofTrace recorded) finished questions

/-! ## The judgement on an execution -/

/-- An execution has departed from the trace: up to a step its questions are those of the trace,
there they differ, and from there on the first options are taken. -/
structure Departure (recorded : Trace) (questions : List Question)
    (execution : Explorer.Execution) (step : Nat) (divergence : Divergence) : Prop where
  agrees : Trace.Agrees (recorded.take step) (questions.take step)
  differs : recorded.Differs step questions[step]? divergence
  reported : execution.finished = .error (.replayDiverged step divergence.text)
  trace : execution.trace = recorded.take step
  firsts : ∀ (index : Nat) (question : Question), step ≤ index →
    questions[index]? = some question →
    execution.answers[index]? = question.options.head?.map .ok

/-- The judgement of a replay on an execution that puts some questions. -/
structure Judges (recorded : Trace) (questions : List Question)
    (execution : Explorer.Execution) : Prop where
  length : execution.answers.length = questions.length
  offered : ∀ (index : Nat) (question : Question), questions[index]? = some question →
    ∃ chosen ∈ question.options, execution.answers[index]? = some (.ok chosen)
  accepted : execution.finished = .ok () ↔ recorded.Agrees questions
  trace : recorded.Agrees questions → execution.trace = recorded
  choices : recorded.Agrees questions → ∀ (index : Nat) (step : TraceStep) (question : Question),
    recorded[index]? = some step → questions[index]? = some question →
    execution.answers[index]? = question.options[step.choice]?.map .ok
  departed : ¬ recorded.Agrees questions →
    ∃ step divergence, Departure recorded questions execution step divergence

private theorem Followed.judges_agreement
    (followed : Followed recorded 0 questions answers questions.length)
    (offered : ∀ question ∈ questions, question.options ≠ [])
    (all : questions.length = recorded.length) :
    Judges recorded questions ⟨answers, recorded.take questions.length, .ok ()⟩ := by
  have agrees : recorded.Agrees questions := by
    have taken := followed.agrees_take
    rw [List.take_length, all, List.take_length] at taken
    exact taken
  exact {
    length := followed.length
    offered := fun _ _ there => followed.offered offered _ there
    accepted := ⟨fun _ => agrees, fun _ => rfl⟩
    trace := fun _ => by rw [all, List.take_length]
    choices := by
      intro _ index step question found there
      have below := (List.getElem?_eq_some_iff.1 there).1
      obtain ⟨other, here, -, answered⟩ := followed.agrees index question below there
      rw [Nat.zero_add, found] at here
      exact Option.some.inj here ▸ answered
    departed := fun disagrees => absurd agrees disagrees }

private theorem Followed.judges_departure (followed : Followed recorded 0 questions answers count)
    (offered : ∀ question ∈ questions, question.options ≠ []) {divergence : Divergence}
    (differs : recorded.Differs count questions[count]? divergence) :
    Judges recorded questions
      ⟨answers, recorded.take count, .error (.replayDiverged count divergence.text)⟩ where
  length := followed.length
  offered := fun _ _ there => followed.offered offered _ there
  accepted := ⟨nofun, fun agrees => absurd agrees differs.not_agrees⟩
  trace := fun agrees => absurd agrees differs.not_agrees
  choices := fun agrees => absurd agrees differs.not_agrees
  departed := fun _ => ⟨count, divergence, followed.agrees_take, differs, rfl, rfl,
    followed.firsts⟩

/-- A replay accepts the recorded execution and no other.  It does so for every execution as it
would for the first, whatever the ones before have asked. -/
theorem accepts_only_recorded (recorded : Trace) (earlier : List (List Question))
    (questions : List Question) (offered : ∀ question ∈ questions, question.options ≠ []) :
    Judges recorded questions
        (Explorer.execute (Explorer.afterAll (ofTrace recorded) earlier) questions).1 ∧
      (Explorer.execute (Explorer.afterAll (ofTrace recorded) earlier) questions).1 =
        (Explorer.execute (ofTrace recorded) questions).1 := by
  refine ⟨?_, execute_afterAll recorded earlier questions⟩
  rw [execute_afterAll]
  obtain ⟨count, followed, ending⟩ := askAll_follows recorded false offered 0
  change Judges recorded questions
    ⟨(DecisionSource.askAll (⟨recorded, 0, false, none⟩ : Replay) questions).1,
      (DecisionSource.askAll (⟨recorded, 0, false, none⟩ : Replay) questions).2.trace,
      (DecisionSource.askAll (⟨recorded, 0, false, none⟩ : Replay) questions).2.finish.1⟩
  rw [Nat.zero_add] at ending
  rcases ending with ⟨rfl, arrived⟩ | ⟨question, divergence, there, differs, arrived⟩
  · -- No question differed, but the trace may go on where the execution ended.
    rw [arrived, finish_steady]
    split
    case isTrue more =>
      have differs : recorded.Differs questions.length questions[questions.length]?
          (.endedEarly questions.length recorded.length) := by
        rw [List.getElem?_eq_none (Nat.le_refl _)]
        exact .endedEarly more
      exact followed.judges_departure offered differs
    case isFalse enough =>
      exact followed.judges_agreement offered
        (Nat.le_antisymm followed.count_le (Nat.not_lt.1 enough))
  · rw [arrived]
    rw [← there] at differs
    exact followed.judges_departure offered differs

/-- Two decisions between a thread and its first child. -/
def twoDecisions : Trace :=
  [⟨"main @ start", ["main", "main.0"], 1⟩, ⟨"main.0 @ start", ["main", "main.0"], 0⟩]

/-- An execution that departs from `twoDecisions` at its second decision. -/
def strayed : List Question :=
  [⟨"main @ start", [.root, .child .root 0]⟩, ⟨"main.0 exit", [.root, .child .root 0]⟩,
    ⟨"main @ start", [.child .root 0]⟩]

theorem rejects_strayed :
    (∀ question ∈ strayed, question.options ≠ []) ∧
      Explorer.execute (Explorer.afterAll (ofTrace twoDecisions) [strayed.take 1]) strayed =
        (⟨[.ok (.child .root 0), .ok .root, .ok (.child .root 0)], twoDecisions.take 1,
            .error (.replayDiverged 1
              "label \x22main.0 exit\x22 does not match recorded \x22main.0 @ start\x22")⟩,
          ⟨twoDecisions, 0, true, none⟩) ∧
      Judges twoDecisions strayed
        (Explorer.execute (Explorer.afterAll (ofTrace twoDecisions) [strayed.take 1])
          strayed).1 := by
  have offered : ∀ question ∈ strayed, question.options ≠ [] := by decide
  exact ⟨offered, rfl,
    (accepts_only_recorded twoDecisions [strayed.take 1] strayed offered).1⟩

end Replay

end ScheduleSearch
