import ScheduleSearch.Proofs.Decision.Sessions

/-!
# What a list of questions does

A *visit* is a place with the question that is asked there.  `Course` says of a list of
questions which choices are made and what becomes of the explorer: the questions agree with the
record up to some point, which may be the end, and their visits are added to the record; the
question at that point disagrees, and from there on nothing changes and the first options are
taken.  Main statement of this module: `Standing.course`, every list of questions has a course.
-/

namespace ScheduleSearch.DepthFirst

open DecisionTree

/-- The places that some choices pass from `place` on, with what is asked at each. -/
def visitsFrom (place choices : List Nat) (questions : List Question) :
    List (List Nat × Question) :=
  (choices.inits.map (place ++ ·)).zip questions

private theorem visitsFrom_nil (place : List Nat) (question : Question) (rest : List Question) :
    visitsFrom place [] (question :: rest) = [(place, question)] := by
  simp [visitsFrom]

private theorem visitsFrom_cons (place : List Nat) (position : Nat) (choices : List Nat)
    (question : Question) (rest : List Question) :
    visitsFrom place (position :: choices) (question :: rest) =
      (place, question) :: visitsFrom (place ++ [position]) choices rest := by
  unfold visitsFrom
  rw [List.inits_cons, List.map_cons, List.append_nil, List.zip_cons_cons, List.map_map]
  simp only [Function.comp_def, List.append_assoc, List.singleton_append]

/-- The last visit is the one to which all the choices lead. -/
theorem visitsFrom_eq_concat {last : Question} {choices : List Nat} :
    ∀ (place : List Nat) {questions : List Question}, questions[choices.length]? = some last →
      visitsFrom place choices questions =
        visitsFrom place choices (questions.take choices.length) ++ [(place ++ choices, last)] := by
  induction choices with
  | nil =>
      intro place questions found
      cases questions with
      | nil => cases found
      | cons question rest =>
          obtain rfl := Option.some.inj found
          rw [visitsFrom_nil, List.append_nil]
          rfl
  | cons position choices inductionHypothesis =>
      intro place questions found
      cases questions with
      | nil => cases found
      | cons question rest =>
          rw [List.length_cons, List.take_succ_cons, visitsFrom_cons, visitsFrom_cons,
            inductionHypothesis (place ++ [position]) found]
          simp

/-- Where there is a choice for every question, the last visit is the end. -/
theorem visitsFrom_of_length {choices : List Nat} {questions : List Question} (last : Question)
    (length : choices.length = questions.length) :
    visitsFrom [] choices (questions ++ [last]) =
      visitsFrom [] choices questions ++ [(choices, last)] := by
  have found : (questions ++ [last])[choices.length]? = some last := by
    rw [length]
    exact List.getElem?_concat_length ..
  have initial : List.take choices.length (questions ++ [last]) = questions := by
    rw [length, List.take_left]
  have visits := visitsFrom_eq_concat [] found
  rwa [initial, List.nil_append] at visits

private theorem Standing.unasked_beyond {explorer : DepthFirst} {place : List Nat}
    (standing : Standing explorer place) (unasked : explorer.tree.askedAt place = none)
    (position : Nat) (choices : List Nat) :
    explorer.tree.askedAt (place ++ position :: choices) = none := by
  have childless := standing.consistent.linked.untested (standing.untested unasked)
  have here := standing.here
  rw [nodeAt] at here
  simp [askedAt, nodeAt, List.foldlM_append, here, childless]

/-- Each question is answered with the option at the position chosen there, and beyond the
choices with its first option. -/
structure Answered (questions : List Question) (choices : List Nat)
    (answers : List (Except Fault ThreadId)) : Prop where
  length : answers.length = questions.length
  answer : ∀ (index : Nat) (question : Question), questions[index]? = some question →
    ∃ chosen, question.options[choices.getD index 0]? = some chosen ∧
      answers[index]? = some (.ok chosen)

private theorem answered_nil : Answered [] [] [] := by
  refine ⟨rfl, ?_⟩
  intro index question found
  cases found

private theorem Answered.cons {question : Question} {rest : List Question}
    {choices later : List Nat} {answers : List (Except Fault ThreadId)} {chosen : ThreadId}
    (picked : question.options[choices.getD 0 0]? = some chosen)
    (shift : ∀ index, choices.getD (index + 1) 0 = later.getD index 0)
    (answered : Answered rest later answers) :
    Answered (question :: rest) choices (.ok chosen :: answers) := by
  refine ⟨by rw [List.length_cons, List.length_cons, answered.length], ?_⟩
  intro index other found
  cases index with
  | zero =>
      obtain rfl := Option.some.inj found
      exact ⟨chosen, picked, rfl⟩
  | succ index =>
      rw [shift]
      exact answered.answer index other found

/-- What some questions do to an explorer that stands at a place: it makes the choices `taken`
and has arrived at the place to which they lead.  All questions agreed with the record, or the
one after the last choice did not. -/
structure Course (explorer : DepthFirst) (place : List Nat) (questions : List Question)
    (taken : List Nat) (answers : List (Except Fault ThreadId)) (arrived : DepthFirst) :
    Prop where
  answered : Answered questions taken answers
  consistent : Consistent arrived.tree
  here : arrived.tree.nodeAt (place ++ taken) = some arrived.current
  runs : arrived.runs = explorer.runs
  recorded : ∀ other, arrived.tree.askedAt other =
    (explorer.tree.askedAt other).or ((visitsFrom place taken questions).lookup other)
  kept : explorer.tree.askedAt (place ++ taken) ≠ none → arrived.tree = explorer.tree
  agreed : ∀ other asked recorded,
    (other, asked) ∈ visitsFrom place taken (questions.take taken.length) →
    explorer.tree.askedAt other = some recorded → recorded.same asked = true
  ending : taken.length = questions.length ∧ arrived.deferred = none ∧
      arrived.tree.askedAt (place ++ taken) = explorer.tree.askedAt (place ++ taken) ∨
    ∃ recorded question, questions[taken.length]? = some question ∧
      explorer.tree.askedAt (place ++ taken) = some recorded ∧
      recorded.same question = false ∧
      arrived.deferred = some (.nondeterministicExecution (place ++ taken).length
        recorded.text question.text)

/-- `next` is the explorer after one question that agreed with the record, or was new. -/
structure Advanced (explorer next : DepthFirst) (place : List Nat) (question : Question)
    (position : Nat) : Prop where
  standing : Standing next (place ++ [position])
  runs : next.runs = explorer.runs
  recorded : ∀ other, next.tree.askedAt other =
    (explorer.tree.askedAt other).or (if other = place then some question else none)
  agreed : ∀ recorded, explorer.tree.askedAt place = some recorded →
    recorded.same question = true
  kept : explorer.tree.askedAt place ≠ none → next.tree = explorer.tree

/-- An explorer goes on with one of the options, unless the question disagrees. -/
theorem Standing.decide_cases {explorer : DepthFirst} {place : List Nat}
    (standing : Standing explorer place) {question : Question} (offered : question.options ≠ []) :
    (∃ position chosen next, explorer.decide question = (.ok chosen, next) ∧
      question.options[position]? = some chosen ∧
      Advanced explorer next place question position) ∨
    ∃ recorded first, question.options[0]? = some first ∧
      explorer.tree.askedAt place = some recorded ∧ recorded.same question = false ∧
      explorer.decide question =
        (.ok first,
          { explorer with
            deferred := some
              (.nondeterministicExecution place.length recorded.text question.text) }) := by
  obtain ⟨first, found⟩ : ∃ first, question.options[0]? = some first :=
    ⟨_, List.getElem?_eq_getElem (List.length_pos_iff.2 offered)⟩
  cases asked : explorer.tree.askedAt place with
  | none =>
      left
      obtain ⟨after, child, decided, visit, there⟩ := standing.decide_new asked found
      refine ⟨0, first, _, decided, found, there, rfl, ?_, ?_, ?_⟩
      · intro other
        rw [visit.askedAt_eq standing.consistent.linked (standing.untested asked) standing.here]
        by_cases equal : other = place
        · rw [if_pos equal, if_pos equal, equal, asked]
          rfl
        · rw [if_neg equal, if_neg equal, Option.or_none]
      · intro recorded impossible
        rw [asked] at impossible
        cases impossible
      · exact fun impossible => absurd asked impossible
  | some recorded =>
      cases same : recorded.same question with
      | false =>
          right
          exact ⟨recorded, first, found, rfl, same, standing.decide_different asked same found⟩
      | true =>
          left
          obtain ⟨position, child, chosen, decided, picked, -, there⟩ :=
            standing.decide_same asked same offered
          refine ⟨position, chosen, _, decided, picked, there, rfl, ?_, ?_, ?_⟩
          · intro other
            by_cases equal : other = place
            · rw [equal, asked]
              rfl
            · rw [if_neg equal, Option.or_none]
          · intro other again
            rw [asked] at again
            rwa [← Option.some.inj again]
          · exact fun _ => rfl

section Course

variable {explorer next arrived : DepthFirst} {place taken : List Nat} {question : Question}
variable {rest : List Question} {answers : List (Except Fault ThreadId)}

private theorem course_nil (standing : Standing explorer place) :
    Course explorer place [] [] [] explorer := by
  have here : place ++ [] = place := List.append_nil place
  constructor
  case answered => exact answered_nil
  case consistent => exact standing.consistent
  case here => rw [here, standing.here]
  case runs => rfl
  case recorded =>
    intro other
    simp [visitsFrom]
  case kept => exact fun _ => rfl
  case agreed =>
    intro other asked recorded visited
    cases visited
  case ending => exact Or.inl ⟨rfl, standing.steady, rfl⟩

/-- Once a fault is put off, every question is answered with its first option. -/
theorem askAll_deferred {fault : Fault} (deferred : explorer.deferred = some fault)
    (questions : List Question) (offered : ∀ question ∈ questions, question.options ≠ []) :
    ∃ answers, explorer.askAll questions = (answers, explorer) ∧
      Answered questions [] answers := by
  induction questions with
  | nil => exact ⟨[], rfl, answered_nil⟩
  | cons question rest inductionHypothesis =>
      obtain ⟨answers, asked, answered⟩ := inductionHypothesis fun other member =>
        offered other (List.mem_cons_of_mem question member)
      obtain ⟨first, others, shape⟩ :=
        List.exists_cons_of_ne_nil (offered question List.mem_cons_self)
      have decided : explorer.decide question = (.ok first, explorer) := by
        rw [decide, shape]
        simp [deferred]
      have picked : question.options[0]? = some first := by
        rw [shape]
        rfl
      refine ⟨.ok first :: answers, ?_, .cons picked (fun _ => rfl) answered⟩
      rw [askAll, decided]
      simp only [asked]

/-- A question that disagrees with the record is the last one that counts. -/
theorem course_different (standing : Standing explorer place) {recorded : Question}
    {first : ThreadId} {fault : Fault} (found : question.options[0]? = some first)
    (asked : explorer.tree.askedAt place = some recorded)
    (different : recorded.same question = false)
    (shape : fault = .nondeterministicExecution place.length recorded.text question.text)
    (answered : Answered rest [] answers) :
    Course explorer place (question :: rest) [] (.ok first :: answers)
      { explorer with deferred := some fault } := by
  have here : place ++ [] = place := List.append_nil place
  constructor
  case answered => exact .cons found (fun _ => rfl) answered
  case consistent => exact standing.consistent
  case here => rw [here, standing.here]
  case runs => rfl
  case recorded =>
    intro other
    rw [visitsFrom_nil, List.lookup_cons]
    by_cases equal : other = place
    · rw [equal, asked]
      rfl
    · rw [beq_false_of_ne equal]
      simp
  case kept => exact fun _ => rfl
  case agreed =>
    intro other asked recorded visited
    cases visited
  case ending =>
    right
    refine ⟨recorded, question, rfl, ?_, different, ?_⟩
    · rw [here, asked]
    · rw [here, shape]

/-- One question that agreed comes before a course. -/
theorem Course.cons (standing : Standing explorer place) {position : Nat} {chosen : ThreadId}
    (picked : question.options[position]? = some chosen)
    (advanced : Advanced explorer next place question position)
    (course : Course next (place ++ [position]) rest taken answers arrived) :
    Course explorer place (question :: rest) (position :: taken) (.ok chosen :: answers)
      arrived := by
  have assoc : ∀ more, place ++ [position] ++ more = place ++ position :: more := by simp
  have beyond : ∀ more, next.tree.askedAt (place ++ position :: more) =
      explorer.tree.askedAt (place ++ position :: more) := by
    intro more
    rw [advanced.recorded, if_neg, Option.or_none]
    simp
  have met : ∀ more, explorer.tree.askedAt (place ++ position :: more) ≠ none →
      explorer.tree.askedAt place ≠ none := by
    intro more known unasked
    exact known (standing.unasked_beyond unasked position more)
  constructor
  case answered => exact .cons picked (fun _ => rfl) course.answered
  case consistent => exact course.consistent
  case here => rw [← assoc, course.here]
  case runs => rw [course.runs, advanced.runs]
  case recorded =>
    intro other
    rw [course.recorded, advanced.recorded, visitsFrom_cons, List.lookup_cons]
    by_cases equal : other = place
    · rw [if_pos equal, equal, BEq.rfl]
      cases explorer.tree.askedAt place with
      | none => rfl
      | some recorded => rfl
    · rw [if_neg equal, Option.or_none, beq_false_of_ne equal]
  case kept =>
    intro known
    rw [← advanced.kept (met taken known)]
    apply course.kept
    rw [assoc, beyond]
    exact known
  case agreed =>
    intro other asked recorded visited known
    rw [List.length_cons, List.take_succ_cons, visitsFrom_cons, List.mem_cons] at visited
    rcases visited with here | later
    · obtain ⟨rfl, rfl⟩ := Prod.mk.inj here
      exact advanced.agreed recorded known
    · refine course.agreed other asked recorded later ?_
      rw [advanced.recorded, known, Option.some_or]
  case ending =>
    rcases course.ending with ⟨length, steady, same⟩ | ⟨recorded, other, there, known, differs, put⟩
    · left
      refine ⟨by rw [List.length_cons, List.length_cons, length], steady, ?_⟩
      rw [← beyond, ← assoc, same]
    · right
      rw [assoc] at known put
      rw [beyond] at known
      exact ⟨recorded, other, there, known, differs, put⟩

theorem Standing.course {questions : List Question} :
    ∀ {explorer : DepthFirst} {place : List Nat}, Standing explorer place →
      (∀ question ∈ questions, question.options ≠ []) →
      ∃ taken answers arrived, explorer.askAll questions = (answers, arrived) ∧
        Course explorer place questions taken answers arrived := by
  induction questions with
  | nil =>
      intro explorer place standing _
      exact ⟨[], [], explorer, rfl, course_nil standing⟩
  | cons question rest inductionHypothesis =>
      intro explorer place standing offered
      have offeredRest : ∀ other ∈ rest, other.options ≠ [] := fun other member =>
        offered other (List.mem_cons_of_mem question member)
      rcases standing.decide_cases (offered question List.mem_cons_self) with
        ⟨position, chosen, next, decided, picked, advanced⟩ |
        ⟨recorded, first, found, asked, different, decided⟩
      · obtain ⟨taken, answers, arrived, followed, course⟩ :=
          inductionHypothesis advanced.standing offeredRest
        refine ⟨position :: taken, .ok chosen :: answers, arrived, ?_,
          course.cons standing picked advanced⟩
        rw [askAll, decided]
        simp only [followed]
      · have deferred : (DepthFirst.mk explorer.tree explorer.current
            (some (.nondeterministicExecution place.length recorded.text question.text))
            explorer.runs).deferred = some _ := rfl
        obtain ⟨answers, followed, answered⟩ := askAll_deferred deferred rest offeredRest
        refine ⟨[], .ok first :: answers, _, ?_,
          course_different standing found asked different rfl answered⟩
        rw [askAll, decided]
        simp only [followed]

end Course

end ScheduleSearch.DepthFirst
