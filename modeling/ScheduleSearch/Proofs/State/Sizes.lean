import Mathlib.Algebra.GroupWithZero.Nat
import ScheduleSearch.Proofs.State.RunStates

/-!
# Sizes of tables

How many entries a table has after an operation, and what its values add up to.
-/

namespace ScheduleSearch

namespace Table

variable {κ α : Type} [Ord κ]

private theorem size_modify (table : Table κ α) (key : κ) (change : α → α) :
    (table.modify key change).size = table.size :=
  List.length_map _

private theorem length_place_le (key : κ) (value : α) (entries : List (κ × α)) :
    (place key value entries).length ≤ entries.length + 1 := by
  induction entries with
  | nil => exact Nat.le_refl _
  | cons head rest inductionHypothesis =>
      obtain ⟨stored, old⟩ := head
      unfold place
      split
      · exact Nat.le_refl _
      · exact Nat.le_succ _
      · exact Nat.succ_le_succ inductionHypothesis

/-- A key that is larger than all others is placed last. -/
theorem place_of_largest {key : κ} (value : α) {entries : List (κ × α)}
    (largest : ∀ entry ∈ entries, compare key entry.1 = .gt) :
    place key value entries = entries ++ [(key, value)] := by
  induction entries with
  | nil => rfl
  | cons head rest inductionHypothesis =>
      obtain ⟨stored, old⟩ := head
      have above := largest (stored, old) List.mem_cons_self
      rw [place, above, List.cons_append, ← inductionHypothesis fun entry member =>
        largest entry (List.mem_cons_of_mem _ member)]

variable [Std.TransOrd κ]

theorem size_insert_le (table : Table κ α) (key : κ) (value : α) :
    (table.insert key value).size ≤ table.size + 1 :=
  length_place_le key value table.entries

private theorem compare_ne_eq_of_below {key stored later : κ}
    (here : (compare key stored).isLE = true)
    (below : compare stored later = .lt) : compare key later ≠ .eq := by
  rw [Std.TransCmp.lt_of_isLE_of_lt here below]
  exact nofun

/-- Erasing a key that is stored takes one entry away. -/
theorem size_erase (table : Table κ α) {key : κ} {value : α}
    (found : table.get? key = some value) : (table.erase key).size + 1 = table.size := by
  obtain ⟨entries, ascending⟩ := table
  obtain ⟨entry, member, here, -⟩ := mem_of_get? found
  change (entries.filter fun entry => compare key entry.1 != .eq).length + 1 = entries.length
  clear found
  induction entries with
  | nil => cases member
  | cons head rest inductionHypothesis =>
      obtain ⟨below, restAscending⟩ := List.pairwise_cons.1 ascending
      by_cases equal : compare key head.1 = .eq
      · have kept : rest.filter (fun entry => compare key entry.1 != .eq) = rest := by
          apply List.filter_eq_self.2
          intro later inside
          have larger := below later inside
          have apart := compare_ne_eq_of_below (by rw [equal]; rfl) larger
          exact bne_iff_ne.2 apart
        rw [List.filter_cons_of_neg (by simp [equal]), kept]
        rfl
      · have inside : entry ∈ rest := by
          rcases List.mem_cons.1 member with rfl | later
          · exact absurd here equal
          · exact later
        rw [List.filter_cons_of_pos (by simp [equal]), List.length_cons,
          inductionHypothesis restAscending inside]
        rfl

/-- Storing a value where there was another one changes a sum over the values by the
difference of the two. -/
theorem sum_values_insert (table : Table κ α) {key : κ} {old : α}
    (found : table.get? key = some old) (value : α) (weight : α → Nat) :
    ((table.insert key value).values.map weight).sum + weight old =
      (table.values.map weight).sum + weight value := by
  obtain ⟨entries, ascending⟩ := table
  obtain ⟨entry, member, here, rfl⟩ := mem_of_get? found
  change (((place key value entries).map Prod.snd).map weight).sum + weight entry.2 =
    ((entries.map Prod.snd).map weight).sum + weight value
  clear found
  induction entries with
  | nil => cases member
  | cons head rest inductionHypothesis =>
      obtain ⟨stored, current⟩ := head
      obtain ⟨below, restAscending⟩ := List.pairwise_cons.1 ascending
      unfold place
      cases order : compare key stored with
      | lt =>
          rcases List.mem_cons.1 member with rfl | later
          · rw [order] at here
            cases here
          · have larger := below entry later
            have apart := compare_ne_eq_of_below (by rw [order]; rfl) larger
            exact absurd here apart
      | eq =>
          rcases List.mem_cons.1 member with rfl | later
          · simp only [List.map_cons, List.sum_cons]
            omega
          · have larger := below entry later
            have apart := compare_ne_eq_of_below (by rw [order]; rfl) larger
            exact absurd here apart
      | gt =>
          have inside : entry ∈ rest := by
            rcases List.mem_cons.1 member with rfl | later
            · rw [order] at here
              cases here
            · exact later
          have rest := inductionHypothesis restAscending inside
          simp only [List.map_cons, List.sum_cons]
          omega

/-- Storing a value under a new key adds it to a sum over the values. -/
theorem sum_values_insert_new (table : Table κ α) {key : κ} (absent : table.get? key = none)
    (value : α) (weight : α → Nat) :
    ((table.insert key value).values.map weight).sum =
      (table.values.map weight).sum + weight value := by
  have apart : ∀ entry ∈ table.entries, compare key entry.1 ≠ .eq := by
    intro entry member here
    rw [table.get?_congr here, get?_of_mem member] at absent
    cases absent
  change (((place key value table.entries).map Prod.snd).map weight).sum =
    ((table.entries.map Prod.snd).map weight).sum + weight value
  clear absent
  generalize table.entries = entries at apart ⊢
  induction entries with
  | nil => simp [place]
  | cons head rest inductionHypothesis =>
      obtain ⟨stored, current⟩ := head
      have here := apart (stored, current) List.mem_cons_self
      have later := inductionHypothesis fun entry member =>
        apart entry (List.mem_cons_of_mem _ member)
      unfold place
      cases order : compare key stored with
      | lt =>
          simp only [List.map_cons, List.sum_cons]
          omega
      | eq => exact absurd order here
      | gt =>
          simp only [List.map_cons, List.sum_cons]
          omega

omit [Std.TransOrd κ] in
/-- A table has as many entries as the sum of ones over its values. -/
theorem size_eq_sum (table : Table κ α) : table.size = (table.values.map fun _ => 1).sum := by
  rw [size, values, List.map_map, Function.comp_def, List.map_const']
  simp

theorem size_insert_new (table : Table κ α) {key : κ} (absent : table.get? key = none)
    (value : α) : (table.insert key value).size = table.size + 1 := by
  rw [size_eq_sum, size_eq_sum, sum_values_insert_new table absent value fun _ => 1]

theorem size_le_insert (table : Table κ α) (key : κ) (value : α) :
    table.size ≤ (table.insert key value).size := by
  cases found : table.get? key with
  | none =>
      rw [size_insert_new table found]
      exact Nat.le_succ _
  | some old =>
      have sums := sum_values_insert table found value fun _ => 1
      rw [size_eq_sum, size_eq_sum]
      omega

end Table

namespace RunStates

variable {states : RunStates}

theorem size_set (states : RunStates) (thread : ThreadId) (state : RunState) :
    (states.set thread state).size = states.size :=
  Table.size_modify _ _ _

theorem size_unblock (states : RunStates) (thread : ThreadId) :
    (states.unblock thread).size = states.size :=
  Table.size_modify _ _ _

/-- A change of the run states of some threads leaves their number as it is. -/
theorem size_foldl {change : RunStates → ThreadId → RunStates}
    (kept : ∀ states thread, (change states thread).size = states.size)
    (threads : List ThreadId) :
    ∀ states : RunStates, (threads.foldl change states).size = states.size := by
  induction threads with
  | nil =>
      intro states
      rfl
  | cons thread rest inductionHypothesis =>
      intro states
      exact (inductionHypothesis _).trans (kept states thread)

theorem size_remove {thread : ThreadId} {state : RunState}
    (live : states.state? thread = some state) :
    (states.remove thread).size + 1 = states.size :=
  Table.size_erase states.table live

end RunStates

end ScheduleSearch
