import ScheduleSearch.Proofs.State.Lookup
import ScheduleSearch.Thread.Joins

/-!
# Who waits for whose exit

`Joins.Waits` is the view of the table of joins.
-/

namespace ScheduleSearch.Joins

variable {joins : Joins}

/-- `joiner` is registered under `joinee`. -/
def Waits (joins : Joins) (joiner joinee : ThreadId) : Prop :=
  ∃ joiners, joins.table.get? joinee = some joiners ∧ joiners.contains joiner = true

theorem not_waits_empty (joiner joinee : ThreadId) : ¬ empty.Waits joiner joinee := by
  rintro ⟨joiners, impossible, -⟩
  cases impossible

theorem waits_congr {joiner joiner' joinee joinee' : ThreadId}
    (joiners : joiner.lineage = joiner'.lineage) (joinees : joinee.lineage = joinee'.lineage) :
    joins.Waits joiner joinee ↔ joins.Waits joiner' joinee' := by
  unfold Waits
  rw [Table.get?_congr joins.table (ThreadId.compare_eq_iff.2 joinees)]
  have same : ∀ keys : KeySet ThreadId, keys.contains joiner = keys.contains joiner' := by
    intro keys
    unfold Table.contains
    rw [Table.get?_congr keys (ThreadId.compare_eq_iff.2 joiners)]
  simp only [same]

private theorem waits_iff {joiner joinee : ThreadId} :
    joins.Waits joiner joinee ↔
      ((joins.table.get? joinee).getD Table.empty).contains joiner = true := by
  unfold Waits
  cases joins.table.get? joinee with
  | none =>
      constructor
      · rintro ⟨joiners, impossible, -⟩
        cases impossible
      · intro impossible
        cases impossible
  | some joiners =>
      constructor
      · rintro ⟨others, found, holds⟩
        cases found
        exact holds
      · intro holds
        exact ⟨joiners, rfl, holds⟩

instance (joiner joinee : ThreadId) : Decidable (joins.Waits joiner joinee) :=
  decidable_of_iff _ waits_iff.symm

theorem waits_add (joins : Joins) (joinee joiner first second : ThreadId) :
    (joins.add joinee joiner).Waits first second ↔
      (first.lineage = joiner.lineage ∧ second.lineage = joinee.lineage) ∨
        joins.Waits first second := by
  rw [waits_iff, waits_iff]
  simp only [add, Table.get?_insert, ThreadId.compare_eq_iff]
  by_cases here : second.lineage = joinee.lineage
  · rw [if_pos here, Option.getD_some, KeySet.contains_add, ThreadId.compare_eq_iff,
      Table.get?_congr joins.table (ThreadId.compare_eq_iff.2 here)]
    simp only [here, and_true]
  · rw [if_neg here]
    simp only [here, and_false, false_or]

theorem mem_joinersOf {joiner joinee : ThreadId} :
    (∃ listed ∈ joins.joinersOf joinee, joiner.lineage = listed.lineage) ↔
      joins.Waits joiner joinee := by
  rw [waits_iff, KeySet.contains_iff_mem_keys]
  simp only [ThreadId.compare_eq_iff]
  rfl

/-- The table after all waits for the exit of one thread are over. -/
theorem waits_release (joins : Joins) (joinee first second : ThreadId) :
    (joins.release joinee).2.Waits first second ↔
      second.lineage ≠ joinee.lineage ∧ joins.Waits first second := by
  rw [waits_iff, waits_iff]
  simp only [release, Table.get?_erase, ThreadId.compare_eq_iff]
  by_cases here : second.lineage = joinee.lineage
  · rw [if_pos here]
    constructor
    · intro impossible
      cases impossible
    · rintro ⟨different, -⟩
      exact absurd here different
  · rw [if_neg here]
    simp only [ne_eq, here, not_false_eq_true, true_and]

end ScheduleSearch.Joins
