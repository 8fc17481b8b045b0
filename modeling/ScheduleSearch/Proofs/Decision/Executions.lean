import ScheduleSearch.Decision.Source

/-!
# Questions in a row

An execution is, to the one who takes its decisions, a list of questions and an end.  This
module says what comes of that with any source of decisions and any explorer.
-/

namespace ScheduleSearch

/-- Puts some questions one after the other. -/
def DecisionSource.askAll {σ : Type} [DecisionSource σ] :
    σ → List Question → List (Except Fault ThreadId) × σ
  | source, [] => ([], source)
  | source, question :: rest =>
      let (answer, asked) := decide source question
      let (answers, arrived) := askAll asked rest
      (answer :: answers, arrived)

namespace Explorer

/-- What is seen of one execution. -/
structure Execution where
  answers : List (Except Fault ThreadId)
  /-- The decisions that are reported before the execution ends. -/
  trace : Trace
  finished : Except Fault Unit

variable {σ : Type} [Explorer σ]

/-- An execution that puts some questions and ends. -/
def execute (explorer : σ) (questions : List Question) : Execution × σ :=
  let (answers, arrived) := DecisionSource.askAll explorer questions
  let (finished, rewound) := finish arrived
  (⟨answers, trace arrived, finished⟩, rewound)

/-- The explorer after some executions. -/
def afterAll (explorer : σ) (executions : List (List Question)) : σ :=
  executions.foldl (fun explorer questions => (execute explorer questions).2) explorer

end Explorer

end ScheduleSearch
