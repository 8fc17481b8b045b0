import ScheduleSearch.Proofs.Decision.Course

/-!
# Nondeterministic executions

An execution that asks something else than an earlier one did at the same place is found out
at its end, and only such an execution is; the decision tree is then what it was before.

What is known after some executions is the list of their visits, in the order in which they
happened; its first entry for a place is the first visit there.  Main statement of this module:
`nondeterminism_detected`.
-/

namespace ScheduleSearch.DepthFirst

open DecisionTree

/-- The questions that offer something; the others are refused at once. -/
def offers (questions : List Question) : List Question :=
  questions.filter fun question => !question.options.isEmpty

/-- What an execution asked, and where.  Where it agreed with the record so far and has no more
questions, it visits one more place with its end. -/
def Session.visits (session : Session) : List (List Nat × Question) :=
  visitsFrom [] session.choices (offers session.questions ++ [⟨endOfExecution, []⟩])

/-- Whatever is asked at a place is what the first visit there has recorded. -/
def Agree (known visits : List (List Nat × Question)) : Prop :=
  ∀ place asked recorded, (place, asked) ∈ visits → known.lookup place = some recorded →
    recorded.same asked = true

/-- Between two executions, after the given visits. -/
structure Idle (explorer : DepthFirst) (known : List (List Nat × Question)) : Prop where
  consistent : Consistent explorer.tree
  steady : explorer.deferred = none
  rewound : explorer.current = DecisionTree.root
  recorded : ∀ place, explorer.tree.askedAt place = known.lookup place

theorem idle_start : Idle start [] := by
  refine ⟨consistent_start, rfl, rfl, ?_⟩
  intro place
  have unasked : ∀ id, (start.tree.node id).question = none := by
    intro id
    cases id with
    | zero => rfl
    | succ id => rfl
  rw [askedAt]
  cases start.tree.nodeAt place with
  | none => rfl
  | some id => exact unasked id

theorem Idle.standing {explorer : DepthFirst} {known : List (List Nat × Question)}
    (idle : Idle explorer known) : Standing explorer [] := by
  refine ⟨idle.consistent, idle.steady, ?_⟩
  rw [idle.rewound]
  rfl

/-- The last visit of an execution disagrees with what is known, and none before it does. -/
structure Disagreement (explorer : DepthFirst) (known : List (List Nat × Question))
    (session : Session) (recorded asked : Question) : Prop where
  visits : ∃ agreed, session.visits = agreed ++ [(session.choices, asked)] ∧ Agree known agreed
  lookup : known.lookup session.choices = some recorded
  different : recorded.same asked = false
  finished : session.finished = .error
    (.nondeterministicExecution session.choices.length recorded.text asked.text)
  kept : session.explorer = { explorer with runs := explorer.runs + 1 }

section Session

variable {explorer arrived : DepthFirst} {known : List (List Nat × Question)}
variable {questions : List Question} {taken : List Nat}
variable {answers : List (Except Fault ThreadId)}

private theorem Agree.append {agreed : List (List Nat × Question)} {place : List Nat}
    {asked : Question} (agree : Agree known agreed)
    (last : ∀ recorded, known.lookup place = some recorded → recorded.same asked = true) :
    Agree known (agreed ++ [(place, asked)]) := by
  intro other question recorded member looked
  rcases List.mem_append.1 member with earlier | here
  · exact agree other question recorded earlier looked
  · obtain ⟨rfl, rfl⟩ := Prod.mk.inj (List.mem_singleton.1 here)
    exact last recorded looked

private theorem Disagreement.not_agree {session : Session} {recorded asked : Question}
    (disagreement : Disagreement explorer known session recorded asked) :
    ¬ Agree known session.visits := by
  intro agree
  obtain ⟨agreed, visits, -⟩ := disagreement.visits
  have same := agree session.choices asked recorded
    (by rw [visits]; exact List.mem_append_right agreed (List.mem_singleton_self _))
    disagreement.lookup
  rw [disagreement.different] at same
  cases same

private theorem offers_eq (offered : ∀ question ∈ questions, question.options ≠ []) :
    offers questions = questions := by
  rw [offers, List.filter_eq_self]
  intro question member
  simpa using offered question member

private theorem session_eq (course : Course explorer [] questions taken answers arrived)
    (asked : explorer.askAll questions = (answers, arrived)) :
    explorer.session questions =
      ⟨questions, answers, taken, arrived.finish.1, arrived.finish.2⟩ := by
  have choices : Trace.choices arrived.trace = taken :=
    choices_eq_place course.consistent.linked course.here
  simp only [session, asked, choices]

/-- What a session does between two executions. -/
structure Outcome (explorer : DepthFirst) (known : List (List Nat × Question))
    (session : Session) : Prop where
  answered : Answered session.questions session.choices session.answers
  idle : Idle session.explorer (known ++ session.visits)
  ending : session.finished = .ok () ∧
      session.choices.length = session.questions.length ∧ Agree known session.visits ∨
    ∃ recorded asked, Disagreement explorer known session recorded asked

private theorem Idle.unchanged (idle : Idle explorer known) {visits : List (List Nat × Question)}
    (old : ∀ place, (explorer.tree.askedAt place).or (visits.lookup place) =
      explorer.tree.askedAt place) (runs : Nat) :
    Idle ⟨explorer.tree, DecisionTree.root, none, runs⟩ (known ++ visits) := by
  refine ⟨idle.consistent, rfl, rfl, ?_⟩
  intro place
  rw [List.lookup_append, ← idle.recorded, old]

private theorem Idle.agree (idle : Idle explorer known)
    (course : Course explorer [] questions taken answers arrived) :
    Agree known (visitsFrom [] taken (questions.take taken.length)) := by
  intro place asked recorded visited looked
  rw [← idle.recorded] at looked
  exact course.agreed place asked recorded visited looked

private theorem Idle.agree_all (idle : Idle explorer known)
    (course : Course explorer [] questions taken answers arrived)
    (length : taken.length = questions.length) :
    Agree known (visitsFrom [] taken questions) := by
  have agree := idle.agree course
  rwa [length, List.take_length] at agree

private theorem Course.tree_eq (course : Course explorer [] questions taken answers arrived)
    {recorded : Question} (knownHere : explorer.tree.askedAt taken = some recorded) :
    arrived.tree = explorer.tree := by
  apply course.kept
  rw [List.nil_append, knownHere]
  exact Option.some_ne_none recorded

/-- All questions agreed, and the execution ended at a new place. -/
private theorem Idle.session_new (idle : Idle explorer known)
    (offered : ∀ question ∈ questions, question.options ≠ [])
    (course : Course explorer [] questions taken answers arrived)
    (asked : explorer.askAll questions = (answers, arrived))
    (length : taken.length = questions.length) (steady : arrived.deferred = none)
    (same : arrived.tree.askedAt taken = explorer.tree.askedAt taken)
    (unasked : explorer.tree.askedAt taken = none) :
    Outcome explorer known (explorer.session questions) := by
  have standing : Standing arrived taken := ⟨course.consistent, steady, course.here⟩
  obtain ⟨after, visit, finished⟩ := standing.finish_new (same.trans unasked)
  have visits := visitsFrom_of_length (Question.mk endOfExecution []) length
  rw [session_eq course asked, finished]
  constructor
  case answered => exact course.answered
  case idle =>
    refine ⟨visit.consistent, rfl, rfl, ?_⟩
    intro place
    rw [visit.askedAt_eq course.consistent.linked (standing.untested (same.trans unasked))
      standing.here, Session.visits, offers_eq offered, visits, List.lookup_append,
      List.lookup_append, ← idle.recorded, course.recorded]
    by_cases equal : place = taken
    · have missed : (visitsFrom [] taken questions).lookup taken = none := by
        have recorded := course.recorded taken
        rw [same, unasked, Option.none_or] at recorded
        exact recorded.symm
      rw [if_pos equal, equal, unasked, missed]
      simp
    · rw [if_neg equal, List.lookup_cons, beq_false_of_ne equal]
      simp
  case ending =>
    left
    refine ⟨rfl, length, ?_⟩
    rw [Session.visits, offers_eq offered, visits]
    refine (idle.agree_all course length).append ?_
    intro recorded looked
    rw [← idle.recorded, unasked] at looked
    cases looked

/-- All questions agreed, and an earlier execution has arrived at the place where this one
ended. -/
private theorem Idle.session_again (idle : Idle explorer known)
    (offered : ∀ question ∈ questions, question.options ≠ [])
    (course : Course explorer [] questions taken answers arrived)
    (asked : explorer.askAll questions = (answers, arrived))
    (length : taken.length = questions.length) (steady : arrived.deferred = none)
    (same : arrived.tree.askedAt taken = explorer.tree.askedAt taken)
    {recorded : Question} (knownHere : explorer.tree.askedAt taken = some recorded) :
    Outcome explorer known (explorer.session questions) := by
  have standing : Standing arrived taken := ⟨course.consistent, steady, course.here⟩
  have finished := standing.finish_again (same.trans knownHere)
  have tree := course.tree_eq knownHere
  have visits := visitsFrom_of_length (Question.mk endOfExecution []) length
  rw [session_eq course asked, finished, tree, course.runs]
  constructor
  case answered => exact course.answered
  case idle =>
    apply idle.unchanged
    intro place
    have old := course.recorded place
    rw [tree] at old
    rw [Session.visits, offers_eq offered, visits, List.lookup_append, ← Option.or_assoc,
      ← old]
    by_cases equal : place = taken
    · rw [equal, knownHere]
      rfl
    · rw [List.lookup_cons, beq_false_of_ne equal]
      simp
  case ending =>
    cases ended : recorded.same ⟨endOfExecution, []⟩ with
    | true =>
        left
        refine ⟨rfl, length, ?_⟩
        rw [Session.visits, offers_eq offered, visits]
        refine (idle.agree_all course length).append ?_
        intro other looked
        rw [← idle.recorded, knownHere] at looked
        rwa [← Option.some.inj looked]
    | false =>
        right
        have agreed := idle.agree_all course length
        refine ⟨recorded, ⟨endOfExecution, []⟩, ⟨_, ?_, agreed⟩, ?_, ended, rfl, ?_⟩
        · rw [Session.visits, offers_eq offered, visits]
        · rw [← idle.recorded, knownHere]
        · rw [idle.steady.symm, idle.rewound.symm]

/-- Some question disagreed. -/
private theorem Idle.session_different (idle : Idle explorer known)
    (offered : ∀ question ∈ questions, question.options ≠ [])
    (course : Course explorer [] questions taken answers arrived)
    (asked : explorer.askAll questions = (answers, arrived)) {recorded question : Question}
    (there : questions[taken.length]? = some question)
    (knownHere : explorer.tree.askedAt taken = some recorded)
    (different : recorded.same question = false)
    (deferred : arrived.deferred =
      some (.nondeterministicExecution taken.length recorded.text question.text)) :
    Outcome explorer known (explorer.session questions) := by
  have tree := course.tree_eq knownHere
  have finished : arrived.finish =
      (.error (.nondeterministicExecution taken.length recorded.text question.text),
        ⟨explorer.tree, DecisionTree.root, none, explorer.runs + 1⟩) := by
    have agreeing : Standing { arrived with deferred := none } taken :=
      ⟨course.consistent, rfl, course.here⟩
    have visited := agreeing.visit_eq (by rw [tree, knownHere]) ⟨endOfExecution, []⟩
    simp only at visited
    rw [finish, deferred, visited, tree, course.runs]
    cases recorded.same ⟨endOfExecution, []⟩ with
    | true => rfl
    | false => rfl
  obtain ⟨within, -⟩ := List.getElem?_eq_some_iff.1 there
  have last : (questions ++ [⟨endOfExecution, []⟩])[taken.length]? = some question := by
    rw [List.getElem?_append_left within, there]
  have initial : List.take taken.length (questions ++ [⟨endOfExecution, []⟩]) =
      questions.take taken.length :=
    List.take_append_of_le_length (Nat.le_of_lt within)
  have visits := visitsFrom_eq_concat [] last
  rw [initial, List.nil_append] at visits
  rw [session_eq course asked, finished]
  constructor
  case answered => exact course.answered
  case idle =>
    apply idle.unchanged
    intro place
    have old := course.recorded place
    have alike := visitsFrom_eq_concat [] there
    rw [List.nil_append] at alike
    rw [tree, alike, ← visits] at old
    rw [Session.visits, offers_eq offered, ← old]
  case ending =>
    right
    refine ⟨recorded, question, ⟨_, ?_, idle.agree course⟩, ?_, different, rfl, ?_⟩
    · rw [Session.visits, offers_eq offered, visits]
    · rw [← idle.recorded, knownHere]
    · rw [idle.steady.symm, idle.rewound.symm]

/-- An execution agrees with everything known, or its last visit disagrees. -/
theorem Idle.session (idle : Idle explorer known)
    (offered : ∀ question ∈ questions, question.options ≠ []) :
    Outcome explorer known (explorer.session questions) := by
  obtain ⟨taken, answers, arrived, asked, course⟩ := idle.standing.course offered
  rcases course.ending with ⟨length, steady, same⟩ | ⟨recorded, question, there, here, differs, put⟩
  · cases before : explorer.tree.askedAt taken with
    | none => exact idle.session_new offered course asked length steady same before
    | some recorded => exact idle.session_again offered course asked length steady same before
  · exact idle.session_different offered course asked there here differs put

private theorem askAll_offers (questions : List Question) :
    ∀ explorer : DepthFirst,
      (explorer.askAll (offers questions)).2 = (explorer.askAll questions).2 := by
  induction questions with
  | nil =>
      intro explorer
      rfl
  | cons question rest inductionHypothesis =>
      intro explorer
      obtain ⟨label, options⟩ := question
      cases options with
      | nil => exact inductionHypothesis explorer
      | cons first others => exact inductionHypothesis _

/-- Whatever an execution asks, its visits are all that becomes known. -/
theorem Idle.after (idle : Idle explorer known) (questions : List Question) :
    Idle (explorer.session questions).explorer
      (known ++ (explorer.session questions).visits) := by
  have offered : ∀ question ∈ offers questions, question.options ≠ [] := by
    intro question member
    simpa using (List.mem_filter.1 member).2
  have outcome := (idle.session offered).idle
  have arrived := askAll_offers questions explorer
  have twice := offers_eq offered
  simp only [DepthFirst.session, Session.visits, arrived, twice] at outcome ⊢
  exact outcome

end Session

/-! ## Session after session -/

/-- The executions of one explorer, each with its own questions. -/
def sessions : DepthFirst → List (List Question) → List Session
  | _, [] => []
  | explorer, questions :: later =>
      explorer.session questions :: (explorer.session questions).explorer.sessions later

/-- The explorer after some executions. -/
def afterSessions (explorer : DepthFirst) (earlier : List (List Question)) : DepthFirst :=
  earlier.foldl (fun explorer questions => (explorer.session questions).explorer) explorer

/-- What is known after some executions is what they visited, first to last. -/
theorem Idle.afterSessions (earlier : List (List Question)) :
    ∀ {explorer : DepthFirst} {known : List (List Nat × Question)}, Idle explorer known →
      Idle (explorer.afterSessions earlier)
        (known ++ (explorer.sessions earlier).flatMap Session.visits) := by
  induction earlier with
  | nil =>
      intro explorer known idle
      rw [sessions, List.flatMap_nil, List.append_nil]
      exact idle
  | cons questions later inductionHypothesis =>
      intro explorer known idle
      have rest := inductionHypothesis (idle.after questions)
      rw [sessions, List.flatMap_cons, ← List.append_assoc]
      exact rest

private theorem advance_runs (explorer : DepthFirst) (runs : Nat) (question : Question) :
    { explorer with runs := runs }.advance question =
      (explorer.advance question).map fun (chosen, advanced) =>
        (chosen, { advanced with runs := runs }) := by
  simp only [advance]
  cases explorer.tree.visit explorer.current question with
  | error fault => rfl
  | ok tree =>
      simp only [bind, Except.bind]
      cases wayOn tree explorer.current with
      | none => rfl
      | some way =>
          obtain ⟨position, child⟩ := way
          cases found : question.options[position]? with
          | none =>
              simp only [found]
              rfl
          | some chosen =>
              simp only [found]
              rfl

private theorem decide_runs (explorer : DepthFirst) (runs : Nat) (question : Question) :
    { explorer with runs := runs }.decide question =
      ((explorer.decide question).1, { (explorer.decide question).2 with runs := runs }) := by
  simp only [decide, advance_runs]
  split
  next => rfl
  next =>
    split
    next => rfl
    next =>
      cases explorer.advance question with
      | error fault => rfl
      | ok way => rfl

private theorem askAll_runs (runs : Nat) (questions : List Question) :
    ∀ explorer : DepthFirst, { explorer with runs := runs }.askAll questions =
      ((explorer.askAll questions).1, { (explorer.askAll questions).2 with runs := runs }) := by
  induction questions with
  | nil =>
      intro explorer
      rfl
  | cons question rest inductionHypothesis =>
      intro explorer
      simp only [askAll, decide_runs, inductionHypothesis]

private theorem finish_runs (explorer : DepthFirst) (runs : Nat) :
    { explorer with runs := runs }.finish.1 = explorer.finish.1 := by
  simp only [finish]
  cases explorer.deferred with
  | none => rfl
  | some fault => rfl

/-- What an execution reports does not depend on how many there were before. -/
theorem session_runs (explorer : DepthFirst) (runs : Nat) (questions : List Question) :
    ({ explorer with runs := runs }.session questions).finished =
      (explorer.session questions).finished := by
  simp only [session, askAll_runs]
  exact finish_runs _ runs

/-- After any executions, one more that asks anything gets one of the offered threads for each
question, and its end is refused exactly if at some place it passed it asked, or ended, other
than on the first visit there.  The fault then names the number of decisions before that place
and both questions, the first options were taken from there on, and nothing but the number of
executions has changed, so the next execution fares as if this one had not been. -/
theorem nondeterminism_detected (earlier : List (List Question)) (questions : List Question)
    (offered : ∀ question ∈ questions, question.options ≠ []) :
    let before := start.afterSessions earlier
    let known := (start.sessions earlier).flatMap Session.visits
    let session := before.session questions
    Answered questions session.choices session.answers ∧
      (session.finished = .ok () ↔ Agree known session.visits) ∧
      (session.finished = .ok () → session.choices.length = questions.length) ∧
      ∀ fault, session.finished = .error fault →
        (∃ agreed recorded asked,
          session.visits = agreed ++ [(session.choices, asked)] ∧ Agree known agreed ∧
            known.lookup session.choices = some recorded ∧ recorded.same asked = false ∧
            fault = .nondeterministicExecution session.choices.length recorded.text
              asked.text) ∧
        (∀ (index : Nat) (question : Question), session.choices.length ≤ index →
          questions[index]? = some question →
          session.answers[index]? = question.options.head?.map .ok) ∧
        session.explorer = { before with runs := before.runs + 1 } ∧
        ∀ later, (session.explorer.session later).finished =
          (before.session later).finished := by
  have idle := idle_start.afterSessions earlier
  rw [List.nil_append] at idle
  obtain ⟨answered, -, ending⟩ := idle.session offered
  refine ⟨answered, ?_, ?_, ?_⟩
  · rcases ending with ⟨finished, -, agree⟩ | ⟨recorded, asked, disagreement⟩
    · exact ⟨fun _ => agree, fun _ => finished⟩
    · refine ⟨fun finished => ?_, fun agree => absurd agree disagreement.not_agree⟩
      rw [disagreement.finished] at finished
      cases finished
  · intro finished
    rcases ending with ⟨-, length, -⟩ | ⟨recorded, asked, disagreement⟩
    · exact length
    · rw [disagreement.finished] at finished
      cases finished
  · intro fault finished
    rcases ending with ⟨accepted, -, -⟩ | ⟨recorded, asked, disagreement⟩
    · rw [accepted] at finished
      cases finished
    · obtain ⟨agreed, visits, agree⟩ := disagreement.visits
      rw [disagreement.finished] at finished
      refine ⟨⟨agreed, recorded, asked, visits, agree, disagreement.lookup,
        disagreement.different, (Except.error.inj finished).symm⟩, ?_, disagreement.kept, ?_⟩
      · intro index question beyond there
        obtain ⟨chosen, picked, answer⟩ := answered.answer index question there
        rw [List.getD_eq_default _ _ beyond] at picked
        rw [answer, List.head?_eq_getElem?, picked]
        rfl
      · intro later
        rw [disagreement.kept, session_runs]

/-- The second decision has another label than in the first execution. -/
theorem disagreement_of_other_label :
    let question : Question := ⟨"first", [.root]⟩
    let other : Question := ⟨"other", [.root]⟩
    (∀ asked ∈ [question, other], asked.options ≠ []) ∧
      ((start.afterSessions [[question, question]]).session [question, other]).finished ≠
        .ok () := by
  intro question other
  have offered : ∀ asked ∈ [question, other], asked.options ≠ [] := by decide
  refine ⟨offered, ?_⟩
  intro finished
  have agree := (nondeterminism_detected [[question, question]] [question, other] offered).2.1.1
    finished
  have same := agree [0] other question (by decide +kernel) (by decide +kernel)
  exact absurd same (by decide)

end ScheduleSearch.DepthFirst
