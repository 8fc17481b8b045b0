import ScheduleSearch.Decision.Source

/-!
# Prepared answers

A script is a decision source that answers from a list prepared beforehand, whatever it is
asked, and keeps the questions.  Its answers may be threads that were not offered, or faults,
so it serves to see how an execution bears with any source.
-/

namespace ScheduleSearch

/-- A prepared answer. -/
inductive ScriptedAnswer where
  /-- The thread at this position, counted round and round. -/
  | position (number : Nat)
  /-- This thread, offered or not. -/
  | thread (thread : ThreadId)
  | fault (fault : Fault)
  deriving DecidableEq, Repr

/-- A list of prepared answers and the questions asked so far. -/
structure Script where
  /-- The answers to come; the first option is taken when there are none left. -/
  answers : List ScriptedAnswer
  /-- The questions asked so far, first to last. -/
  asked : List Question
  deriving DecidableEq, Repr, Inhabited

namespace Script

/-- A script of which no answer was used. -/
def ofAnswers (answers : List ScriptedAnswer) : Script := ⟨answers, []⟩

/-- What a prepared answer says to a question. -/
def reply (question : Question) : ScriptedAnswer → Except Fault ThreadId
  | .position number =>
      match question.options[number % question.options.length]? with
      | some chosen => .ok chosen
      | none => .error (.checkpoint "no options offered")
  | .thread chosen => .ok chosen
  | .fault fault => .error fault

/-- Answers a question with the next prepared answer. -/
def decide (script : Script) (question : Question) : Except Fault ThreadId × Script :=
  (reply question (script.answers.headD (.position 0)),
    { answers := script.answers.tail, asked := script.asked ++ [question] })

instance : DecisionSource Script where
  decide := decide

end Script

end ScheduleSearch
