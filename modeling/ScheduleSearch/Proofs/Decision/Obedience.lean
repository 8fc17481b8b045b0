import ScheduleSearch.Decision.Script
import ScheduleSearch.Proofs.Decision.Sequence

/-!
# Sources that answer with offered threads

A source is obedient if it answers every question with one of the offered threads, whatever it
was asked before.  An obedient source leads every program to a leaf, and every leaf is where
some obedient source leads: a script of the positions on the way.  `Logged` keeps the decisions
of a source, so they can be compared with those on the way to a leaf.
-/

namespace ScheduleSearch

namespace DecisionSource

variable {σ : Type} [DecisionSource σ]

/-- The source after it was asked some questions. -/
def asked (source : σ) (earlier : List Choice) : σ :=
  earlier.foldl (fun source choice => (decide source choice.toQuestion).2) source

/-- The source answers with an offered thread, whatever it is asked. -/
def Obedient (source : σ) : Prop :=
  ∀ (earlier : List Choice) (choice : Choice), ∃ thread,
    (decide (asked source earlier) choice.toQuestion).1 = .ok thread ∧
      choice.options.any (fun option => option.same thread) = true

private theorem Obedient.after {source : σ} (obedient : Obedient source) (choice : Choice) :
    Obedient (decide source choice.toQuestion).2 :=
  fun earlier => obedient (choice :: earlier)

end DecisionSource

/-- The record of answering a question with a thread. -/
def Question.record (question : Question) (thread : ThreadId) : TraceStep where
  label := question.label
  options := question.names
  choice := question.options.findIdx fun option => option.same thread

private theorem Choice.record_eq_step (choice : Choice) {thread : ThreadId}
    {position : Fin choice.options.length}
    (chosen : (choice.options.get position).same thread = true) :
    choice.record thread = choice.step position := by
  have first : (choice.options.findIdx fun option => option.same thread) = position.val := by
    refine (List.findIdx_eq position.isLt).2 ⟨chosen, ?_⟩
    intro earlier before
    rw [← Bool.not_eq_true]
    intro also
    have both : choice.options[earlier].same choice.options[position] = true := by
      rw [ThreadId.same_iff_lineage] at also chosen ⊢
      exact also.trans chosen.symm
    have equal := (choice.same_at_iff ⟨earlier, before.trans position.isLt⟩ position).1 both
    have value : earlier = position.val := congrArg Fin.val equal
    omega
  simp only [Question.record, Choice.step, first]

/-- A source and the decisions it has taken. -/
structure Logged (σ : Type) where
  source : σ
  log : Trace

namespace Logged

variable {σ : Type} [DecisionSource σ]

/-- A source that has not taken any decision. -/
def ofSource (source : σ) : Logged σ := ⟨source, []⟩

/-- Answers as the source does, and records the answer. -/
def decide (logged : Logged σ) (question : Question) : Except Fault ThreadId × Logged σ :=
  match DecisionSource.decide logged.source question with
  | (.ok thread, asked) => (.ok thread, ⟨asked, logged.log ++ [question.record thread]⟩)
  | (.error fault, asked) => (.error fault, ⟨asked, logged.log⟩)

instance : DecisionSource (Logged σ) where
  decide := decide

end Logged

namespace Script

/-- The script that takes the decisions of a trace. -/
def ofTrace (trace : Trace) : Script :=
  ofAnswers (trace.map fun step => .position step.choice)

/-- A script that names positions only is obedient. -/
theorem obedient_of_positions {answers : List ScriptedAnswer}
    (positions : ∀ answer ∈ answers, ∃ number, answer = .position number)
    (questions : List Question) :
    DecisionSource.Obedient (⟨answers, questions⟩ : Script) := by
  intro earlier
  induction earlier generalizing answers questions with
  | nil =>
      intro choice
      have wide : 0 < choice.options.length := List.length_pos_iff.2 choice.offered
      obtain ⟨number, next⟩ : ∃ number, answers.headD (.position 0) = .position number := by
        cases answers with
        | nil => exact ⟨0, rfl⟩
        | cons answer rest => exact positions answer List.mem_cons_self
      have within := Nat.mod_lt number wide
      refine ⟨choice.options[number % choice.options.length], ?_, ?_⟩
      · change reply choice.toQuestion (answers.headD (.position 0)) = _
        rw [next, reply, List.getElem?_eq_getElem within]
      · refine List.any_eq_true.2 ⟨_, List.getElem_mem within, ?_⟩
        rw [ThreadId.same_iff_lineage]
  | cons first rest inductionHypothesis =>
      exact inductionHypothesis
        (fun answer member => positions answer (List.mem_of_mem_tail member))
        (questions ++ [first.toQuestion])

theorem obedient_ofTrace (trace : Trace) : DecisionSource.Obedient (ofTrace trace) := by
  refine obedient_of_positions ?_ []
  intro answer member
  obtain ⟨step, -, rfl⟩ := List.mem_map.1 member
  exact ⟨step.choice, rfl⟩

end Script

namespace DecisionProgram

variable {ω σ : Type} [DecisionSource σ]

/-- An obedient source leads every program to a leaf. -/
theorem exists_leads (program : DecisionProgram ω) :
    ∀ {source : σ}, DecisionSource.Obedient source →
      ∃ leaf after, program.Leads source leaf after := by
  induction program with
  | ended outcome =>
      intro source _
      exact ⟨_, _, .ended outcome source⟩
  | decision choice below inductionHypothesis =>
      intro source obedient
      obtain ⟨thread, answered, offered⟩ := obedient [] choice
      obtain ⟨position, found⟩ := choice.position?_of_offered offered
      obtain ⟨leaf, after, leads⟩ := inductionHypothesis position (obedient.after choice)
      exact ⟨_, _, .decision (Prod.ext answered rfl) (choice.same_of_position? found) leads⟩

/-- Keeping the decisions does not change them, and those on the way to the leaf are kept. -/
theorem Leads.logged {program : DecisionProgram ω} {source after : σ} {leaf : Leaf ω}
    (leads : program.Leads source leaf after) :
    ∀ log : Trace, program.Leads (⟨source, log⟩ : Logged σ) leaf ⟨after, log ++ leaf.trace⟩ := by
  induction leads with
  | ended outcome source =>
      intro log
      rw [List.append_nil]
      exact .ended outcome _
  | @decision choice below source asked after thread position leaf answered chosen rest
      inductionHypothesis =>
      intro log
      have recorded : DecisionSource.decide (⟨source, log⟩ : Logged σ) choice.toQuestion =
          (.ok thread, ⟨asked, log ++ [choice.step position]⟩) := by
        change Logged.decide _ _ = _
        rw [Logged.decide, answered, ← choice.record_eq_step chosen]
      have kept :=
        Leads.decision recorded chosen (inductionHypothesis (log ++ [choice.step position]))
      rw [List.append_assoc] at kept
      exact kept

/-- The script of the decisions on the way to a leaf leads there. -/
theorem leads_ofTrace (program : DecisionProgram ω) :
    ∀ {leaf : Leaf ω} (questions : List Question), leaf ∈ program.leaves →
      ∃ after, program.Leads
        (⟨leaf.trace.map fun step => .position step.choice, questions⟩ : Script) leaf after := by
  induction program with
  | ended outcome =>
      intro leaf questions member
      obtain rfl := List.mem_singleton.1 member
      exact ⟨_, .ended outcome _⟩
  | decision choice below inductionHypothesis =>
      intro leaf questions member
      obtain ⟨position, -, listed⟩ := List.mem_flatMap.1 member
      obtain ⟨rest, restMember, rfl⟩ := List.mem_map.1 listed
      obtain ⟨after, leads⟩ :=
        inductionHypothesis position (questions ++ [choice.toQuestion]) restMember
      have within : position.val % choice.options.length = position.val :=
        Nat.mod_eq_of_lt position.isLt
      have reply : Script.reply choice.toQuestion (.position position.val) =
          .ok choice.options[position] := by
        rw [Script.reply, within, List.getElem?_eq_getElem position.isLt]
        rfl
      have same : choice.options[position].same choice.options[position] = true := by
        rw [ThreadId.same_iff_lineage]
      exact ⟨after, .decision (Prod.ext reply rfl) same leads⟩

end DecisionProgram

end ScheduleSearch
