import ScheduleSearch.Proofs.Decision.Program

/-!
# Executions step by step

`Leads` says of one execution which leaf it ends in and what becomes of the source; it is
`walk` as a relation, so what an execution does can be shown by induction on it.  Programs are
put one after the other with `bind`: the outcomes of the whole are those of the second part after
each outcome of the first, and an execution of the whole is one of the first part followed by one
of the second.
-/

namespace ScheduleSearch.DecisionProgram

variable {ω ι σ : Type}

/-- The second program begins where the first one ends. -/
def bind : DecisionProgram ι → (ι → DecisionProgram ω) → DecisionProgram ω
  | ended outcome, next => next outcome
  | decision choice below, next => decision choice fun position => (below position).bind next

/-- The same program with its outcomes seen through a function. -/
def map (view : ι → ω) (program : DecisionProgram ι) : DecisionProgram ω :=
  program.bind fun outcome => ended (view outcome)

/-- What executions come to, from left to right. -/
def outcomes (program : DecisionProgram ω) : List ω :=
  program.leaves.map Leaf.outcome

@[simp]
private theorem outcomes_ended (outcome : ω) : (ended outcome).outcomes = [outcome] := rfl

theorem outcomes_decision (choice : Choice)
    (below : Fin choice.options.length → DecisionProgram ω) :
    (decision choice below).outcomes =
      (List.finRange choice.options.length).flatMap fun position => (below position).outcomes := by
  simp only [outcomes, leaves, List.map_flatMap, List.map_map]
  rfl

theorem outcomes_bind (program : DecisionProgram ι) (next : ι → DecisionProgram ω) :
    (program.bind next).outcomes =
      program.outcomes.flatMap fun outcome => (next outcome).outcomes := by
  induction program with
  | ended outcome =>
      rw [bind, outcomes_ended, List.flatMap_singleton]
  | decision choice below inductionHypothesis =>
      simp only [bind, outcomes_decision, List.flatMap_assoc, inductionHypothesis]

theorem outcomes_map (view : ι → ω) (program : DecisionProgram ι) :
    (program.map view).outcomes = program.outcomes.map view := by
  rw [map, outcomes_bind]
  exact List.flatMap_pure_eq_map view program.outcomes

variable [DecisionSource σ]

/-- The answers of `source` lead through a program to `leaf`, and leave the source `after`. -/
inductive Leads : DecisionProgram ω → σ → Leaf ω → σ → Prop
  | ended (outcome : ω) (source : σ) : Leads (ended outcome) source ⟨[], outcome⟩ source
  | decision {choice : Choice} {below : Fin choice.options.length → DecisionProgram ω}
      {source asked after : σ} {thread : ThreadId} {position : Fin choice.options.length}
      {leaf : Leaf ω}
      (answered : DecisionSource.decide source choice.toQuestion = (.ok thread, asked))
      (chosen : (choice.options.get position).same thread = true)
      (rest : Leads (below position) asked leaf after) :
      Leads (decision choice below) source (leaf.after (choice.step position)) after

theorem walk_of_leads {program : DecisionProgram ω} {source after : σ} {leaf : Leaf ω}
    (leads : program.Leads source leaf after) : program.walk source = (some leaf, after) := by
  induction leads with
  | ended outcome source => rfl
  | @decision choice below source asked after thread position leaf answered chosen rest
      inductionHypothesis =>
      have found := choice.position?_of_same chosen
      rw [walk, answered]
      dsimp only
      rw [found]
      dsimp only
      rw [inductionHypothesis]
      rfl

private theorem leads_of_walk (program : DecisionProgram ω) :
    ∀ {source after : σ} {leaf : Leaf ω}, program.walk source = (some leaf, after) →
      program.Leads source leaf after := by
  induction program with
  | ended outcome =>
      intro source after leaf walked
      obtain ⟨found, rfl⟩ := Prod.mk.inj walked
      obtain rfl := Option.some.inj found
      exact .ended outcome source
  | decision choice below inductionHypothesis =>
      intro source after leaf walked
      unfold walk at walked
      split at walked
      next fault asked answered => cases (Prod.mk.inj walked).1
      next thread asked answered =>
        split at walked
        next missing => cases (Prod.mk.inj walked).1
        next position found =>
          have chosen := choice.same_of_position? found
          obtain ⟨reached, rfl⟩ := Prod.mk.inj walked
          obtain ⟨rest, arrived, rfl⟩ := Option.map_eq_some_iff.1 reached
          exact .decision answered chosen
            (inductionHypothesis position (Prod.ext arrived rfl))

theorem leads_iff_walk {program : DecisionProgram ω} {source after : σ} {leaf : Leaf ω} :
    program.Leads source leaf after ↔ program.walk source = (some leaf, after) :=
  ⟨walk_of_leads, program.leads_of_walk⟩

/-- An execution ends in one of the leaves. -/
theorem Leads.mem_leaves {program : DecisionProgram ω} {source after : σ} {leaf : Leaf ω}
    (leads : program.Leads source leaf after) : leaf ∈ program.leaves := by
  induction leads with
  | ended outcome source => exact List.mem_singleton_self _
  | @decision choice below source asked after thread position leaf answered chosen rest
      inductionHypothesis =>
      refine List.mem_flatMap.2 ⟨position, List.mem_finRange position, ?_⟩
      exact List.mem_map_of_mem inductionHypothesis

/-- An execution of two programs in a row is one of the first and then one of the second. -/
theorem Leads.of_bind {program : DecisionProgram ι} {next : ι → DecisionProgram ω} :
    ∀ {source after : σ} {leaf : Leaf ω}, (program.bind next).Leads source leaf after →
      ∃ first between second, program.Leads source first between ∧
        (next first.outcome).Leads between second after ∧
        leaf = ⟨first.trace ++ second.trace, second.outcome⟩ := by
  induction program with
  | ended outcome =>
      intro source after leaf leads
      exact ⟨⟨[], outcome⟩, source, leaf, .ended outcome source, leads, rfl⟩
  | decision choice below inductionHypothesis =>
      intro source after leaf leads
      cases leads with
      | decision answered chosen rest =>
          obtain ⟨first, between, second, early, late, rfl⟩ := inductionHypothesis _ rest
          exact ⟨first.after _, between, second, .decision answered chosen early, late, rfl⟩

theorem Leads.of_map {program : DecisionProgram ι} {view : ι → ω} {source after : σ}
    {leaf : Leaf ω} (leads : (program.map view).Leads source leaf after) :
    ∃ first, program.Leads source first after ∧ leaf = ⟨first.trace, view first.outcome⟩ := by
  obtain ⟨first, between, second, early, late, rfl⟩ := leads.of_bind
  cases late with
  | ended outcome source => exact ⟨first, early, by rw [List.append_nil]⟩

end ScheduleSearch.DecisionProgram
