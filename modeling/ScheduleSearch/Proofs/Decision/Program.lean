import Mathlib.Algebra.GroupWithZero.Nat
import Mathlib.Data.List.FinRange
import ScheduleSearch.Decision.Source
import ScheduleSearch.Thread.Order

/-!
# Decision programs

A deterministic test is seen by a decision source as a finite tree: at an inner node the source
is asked a question and its answer selects the subtree in which the test goes on; at a leaf the
test has ended with some outcome.  The leaves are listed from left to right, each with the
decisions on its way from the root, so two leaves differ even where their outcomes agree.

`walk` is one execution of a program under any source.  Main statement of this module:
`leaves_nodup_choices`, no two leaves are reached by the same choices.
-/

namespace ScheduleSearch

/-- A question that offers at least one thread and no thread twice. -/
structure Choice extends Question where
  offered : options ≠ []
  distinct : options.Pairwise fun earlier later => earlier.same later = false

namespace Choice

/-- The position at which a thread is offered. -/
def position? (choice : Choice) (thread : ThreadId) : Option (Fin choice.options.length) :=
  (List.finRange choice.options.length).find? fun position =>
    choice.options[position].same thread

/-- The record of answering with the thread at a position. -/
def step (choice : Choice) (position : Fin choice.options.length) : TraceStep where
  label := choice.label
  options := choice.names
  choice := position

theorem same_at_iff (choice : Choice) (left right : Fin choice.options.length) :
    choice.options[left].same choice.options[right] = true ↔ left = right := by
  constructor
  · intro same
    have pairwise := List.pairwise_iff_getElem.1 choice.distinct
    rcases Nat.lt_trichotomy left.val right.val with below | equal | above
    · have apart := pairwise left right left.isLt right.isLt below
      rw [Fin.getElem_fin, Fin.getElem_fin, apart] at same
      cases same
    · exact Fin.ext equal
    · have apart := pairwise right left right.isLt left.isLt above
      have reversed : choice.options[right].same choice.options[left] = true := by
        rw [ThreadId.same_iff_lineage] at same ⊢
        exact same.symm
      rw [Fin.getElem_fin, Fin.getElem_fin, apart] at reversed
      cases reversed
  · rintro rfl
    rw [ThreadId.same_iff_lineage]

/-- A thread is found where it is offered. -/
theorem position?_of_same (choice : Choice) {thread : ThreadId}
    {position : Fin choice.options.length}
    (same : choice.options[position].same thread = true) :
    choice.position? thread = some position := by
  have alike : ∀ other : Fin choice.options.length,
      choice.options[other].same thread = true ↔ other = position := by
    intro other
    rw [← same_at_iff choice other position]
    simp only [ThreadId.same_iff_lineage] at same ⊢
    rw [same]
  unfold position?
  cases found : (List.finRange choice.options.length).find? fun position =>
      choice.options[position].same thread with
  | none =>
      have absent := List.find?_eq_none.1 found position (List.mem_finRange position)
      exact absurd same absent
  | some other =>
      have holds := List.find?_some found
      rw [(alike other).1 holds]

/-- Only a thread that is offered is found. -/
theorem same_of_position? (choice : Choice) {thread : ThreadId}
    {position : Fin choice.options.length} (found : choice.position? thread = some position) :
    choice.options[position].same thread = true := by
  have holds := List.find?_some found
  exact holds

theorem position?_of_offered (choice : Choice) {thread : ThreadId}
    (offered : choice.options.any (fun option => option.same thread) = true) :
    ∃ position, choice.position? thread = some position := by
  obtain ⟨option, member, same⟩ := List.any_eq_true.1 offered
  obtain ⟨index, within, found⟩ := List.getElem_of_mem member
  refine ⟨⟨index, within⟩, choice.position?_of_same ?_⟩
  rw [Fin.getElem_fin, found]
  exact same

end Choice

/-- The positions that were chosen. -/
def Trace.choices (trace : Trace) : List Nat :=
  trace.map (·.choice)

/-- An end of execution, with the decisions that lead there. -/
structure Leaf (ω : Type) where
  trace : Trace
  outcome : ω

/-- The same end, reached by one more decision at the start. -/
def Leaf.after {ω : Type} (step : TraceStep) (leaf : Leaf ω) : Leaf ω where
  trace := step :: leaf.trace
  outcome := leaf.outcome

/-- A deterministic test, as it shows itself to a decision source. -/
inductive DecisionProgram (ω : Type) where
  /-- The test has ended. -/
  | ended (outcome : ω)
  /-- The test asks, and goes on according to the position of the answer. -/
  | decision (choice : Choice) (below : Fin choice.options.length → DecisionProgram ω)

namespace DecisionProgram

variable {ω σ : Type}

/-- The ends of execution from left to right. -/
def leaves : DecisionProgram ω → List (Leaf ω)
  | ended outcome => [⟨[], outcome⟩]
  | decision choice below =>
      (List.finRange choice.options.length).flatMap fun position =>
        (below position).leaves.map (Leaf.after (choice.step position))

/-- The number of nodes, leaves included. -/
def nodeCount : DecisionProgram ω → Nat
  | ended _ => 1
  | decision choice below =>
      1 + ((List.finRange choice.options.length).map fun position =>
        (below position).nodeCount).sum

/-- One execution: the source is asked at every inner node, and its answer selects the way on.
There is no leaf if the source fails or names a thread that was not offered. -/
def walk [DecisionSource σ] : DecisionProgram ω → σ → Option (Leaf ω) × σ
  | ended outcome, source => (some ⟨[], outcome⟩, source)
  | decision choice below, source =>
      match DecisionSource.decide source choice.toQuestion with
      | (.error _, asked) => (none, asked)
      | (.ok thread, asked) =>
          match choice.position? thread with
          | none => (none, asked)
          | some position =>
              let (leaf, walked) := (below position).walk asked
              (leaf.map (Leaf.after (choice.step position)), walked)

theorem leaves_ne_nil (program : DecisionProgram ω) : program.leaves ≠ [] := by
  induction program with
  | ended outcome => simp [leaves]
  | decision choice below inductionHypothesis =>
      have wide : 0 < choice.options.length := List.length_pos_iff.2 choice.offered
      intro empty
      simp only [leaves, List.flatMap_eq_nil_iff, List.map_eq_nil_iff] at empty
      exact inductionHypothesis ⟨0, wide⟩ (empty ⟨0, wide⟩ (List.mem_finRange _))

/-- Different leaves are reached by different choices. -/
theorem leaves_nodup_choices (program : DecisionProgram ω) :
    (program.leaves.map fun leaf => leaf.trace.choices).Nodup := by
  induction program with
  | ended outcome => simp [leaves]
  | decision choice below inductionHypothesis =>
      simp only [leaves, List.map_flatMap, List.map_map, List.nodup_flatMap]
      constructor
      · intro position _
        have shape : (fun leaf : Leaf ω => leaf.trace.choices) ∘ Leaf.after (choice.step position) =
            List.cons position.val ∘ fun leaf => leaf.trace.choices := rfl
        rw [shape, ← List.map_map]
        refine List.Nodup.map ?_ (inductionHypothesis position)
        intro left right equal
        exact (List.cons.inj equal).2
      · apply (List.nodup_finRange _).imp
        intro left right different choices leftMember rightMember
        obtain ⟨leftLeaf, -, rfl⟩ := List.mem_map.1 leftMember
        obtain ⟨rightLeaf, -, equal⟩ := List.mem_map.1 rightMember
        exact different (Fin.ext (List.cons.inj equal).1).symm

theorem leaves_nodup_traces (program : DecisionProgram ω) :
    (program.leaves.map Leaf.trace).Nodup := by
  apply List.Nodup.of_map Trace.choices
  rw [List.map_map]
  exact program.leaves_nodup_choices

end DecisionProgram

end ScheduleSearch
