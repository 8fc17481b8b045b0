import ScheduleSearch.Decision.Trace
import ScheduleSearch.Fault

/-!
# Sources of decisions

Whenever more than one thread could run, a *decision source* is asked which of them shall.
A source is a value: asking it yields its answer and the source as it is from then on.  An
*explorer* is a source that is told where an execution ends and steers the next one.
-/

namespace ScheduleSearch

/-- A decision to be taken: where, and among which threads. -/
structure Question where
  /-- The acting thread and the place in the test it was last seen at. -/
  label : String
  /-- The threads that could run. -/
  options : List ThreadId
  deriving DecidableEq, Repr, Inhabited

namespace Question

/-- Whether two questions have one label and offer the same threads in the same order. -/
def same (left right : Question) : Bool :=
  left.label == right.label && sameThreads left.options right.options

def names (question : Question) : List String :=
  question.options.map ThreadId.name

def text (question : Question) : String :=
  "\"" ++ question.label ++ "\" " ++ bracketed question.names

end Question

/-- Something that chooses among threads. -/
class DecisionSource (σ : Type) where
  /-- Answers one question with a thread or a fault. -/
  decide : σ → Question → Except Fault ThreadId × σ

/-- A decision source that steers a sequence of executions. -/
class Explorer (σ : Type) extends DecisionSource σ where
  /-- The execution ended.  Yields the fault that was put off while deciding, if any. -/
  finish : σ → Except Fault Unit × σ
  /-- Whether no execution is left to try. -/
  isComplete : σ → Bool
  /-- The decisions of the current execution so far. -/
  trace : σ → Trace
  /-- A guess at the number of executions that are needed. -/
  estimate : σ → Nat

end ScheduleSearch
