import ScheduleSearch.Monitor.Basic
import ScheduleSearch.Table
import ScheduleSearch.Thread.Order

/-!
# Looking things up

A table is known by what is found under each key.  This module adds to the lemmas on
insertion and erasure those on modification and membership, and says what it means that two
keys are the same: two locks if they are equal, two threads if their lineages are.
-/

namespace ScheduleSearch

@[simp]
theorem ThreadId.compare_eq_iff {left right : ThreadId} :
    compare left right = .eq ↔ left.lineage = right.lineage := by
  rw [compare_eq_lineage]
  exact Std.LawfulEqCmp.compare_eq_iff_eq

@[simp]
theorem LockId.compare_eq_iff {left right : LockId} : compare left right = .eq ↔ left = right := by
  change compare left.number right.number = .eq ↔ left = right
  rw [Nat.compare_eq_eq]
  constructor
  · intro equal
    cases left
    cases right
    exact congrArg LockId.mk equal
  · intro equal
    rw [equal]

namespace Table

variable {κ α : Type} [Ord κ] {table : Table κ α}

theorem mem_of_get? {key : κ} {value : α} (found : table.get? key = some value) :
    ∃ entry ∈ table.entries, compare key entry.1 = .eq ∧ entry.2 = value := by
  simp only [get?, entry?, Option.map_eq_some_iff] at found
  obtain ⟨entry, first, rfl⟩ := found
  exact ⟨entry, List.mem_of_find?_eq_some first, by simpa using List.find?_some first, rfl⟩

theorem contains_iff {key : κ} : table.contains key = true ↔ ∃ value, table.get? key = some value :=
  Option.isSome_iff_exists

theorem contains_eq_false_iff {key : κ} : table.contains key = false ↔ table.get? key = none := by
  simp [contains]

variable [Std.TransOrd κ]

theorem get?_congr (table : Table κ α) {left right : κ} (same : compare left right = .eq) :
    table.get? left = table.get? right := by
  have alike : ∀ stored, compare left stored = compare right stored := fun _ =>
    Std.TransCmp.congr_left same
  simp only [get?, entry?, alike]

theorem erase_congr (table : Table κ α) {left right : κ} (same : compare left right = .eq) :
    table.erase left = table.erase right := by
  have alike : ∀ stored, compare left stored = compare right stored := fun _ =>
    Std.TransCmp.congr_left same
  simp only [erase, alike]

theorem modify_congr (table : Table κ α) {left right : κ} (same : compare left right = .eq)
    (change : α → α) : table.modify left change = table.modify right change := by
  have alike : ∀ stored, compare left stored = compare right stored := fun _ =>
    Std.TransCmp.congr_left same
  simp only [modify, alike]

theorem get?_modify (table : Table κ α) (key other : κ) (change : α → α) :
    (table.modify key change).get? other =
      if compare other key = .eq then (table.get? other).map change else table.get? other := by
  simp only [get?, entry?, modify, List.find?_map, Option.map_map]
  have keys : ((fun entry : κ × α => compare other entry.1 == .eq) ∘ fun entry =>
      if compare key entry.1 == .eq then (entry.1, change entry.2) else entry) =
        fun entry => compare other entry.1 == .eq := by
    funext entry
    simp only [Function.comp_apply]
    split <;> rfl
  rw [keys]
  cases found : table.entries.find? (fun entry => compare other entry.1 == .eq) with
  | none => simp
  | some entry =>
      have here : compare other entry.1 = .eq := by simpa using List.find?_some found
      by_cases same : compare other key = .eq
      · have stored : compare key entry.1 = .eq :=
          Std.TransCmp.eq_trans (Std.OrientedCmp.eq_symm same) here
        simp [same, stored]
      · have apart : compare key entry.1 ≠ .eq := fun stored =>
          same (Std.TransCmp.eq_trans here (Std.OrientedCmp.eq_symm stored))
        simp [same, apart]

theorem get?_of_mem {entry : κ × α} (member : entry ∈ table.entries) :
    table.get? entry.1 = some entry.2 := by
  have ascending := table.ascending
  simp only [get?, entry?]
  generalize table.entries = entries at member ascending
  induction entries with
  | nil => cases member
  | cons head rest inductionHypothesis =>
      obtain ⟨below, restAscending⟩ := List.pairwise_cons.1 ascending
      rcases List.mem_cons.1 member with equal | later
      · simp [equal, Std.ReflCmp.compare_self]
      · have apart : compare entry.1 head.1 ≠ .eq := by
          have smaller := Std.OrientedCmp.gt_of_lt (below entry later)
          rw [smaller]
          exact fun impossible => Ordering.noConfusion impossible
        simpa [List.find?_cons, apart] using inductionHypothesis later restAscending

theorem isEmpty_iff : table.isEmpty = true ↔ ∀ key, table.get? key = none := by
  constructor
  · intro empty key
    simp [get?, entry?, List.isEmpty_iff.1 empty]
  · intro none
    cases shape : table.entries with
    | nil => simp [isEmpty, shape]
    | cons entry rest =>
        have member : entry ∈ table.entries := by simp [shape]
        have found := get?_of_mem member
        rw [none] at found
        cases found

theorem nodup_entries (table : Table κ α) : table.entries.Nodup := by
  apply table.ascending.imp
  rintro earlier later below rfl
  simp [Std.ReflCmp.compare_self] at below

theorem mem_entries_iff [Std.LawfulEqOrd κ] {entry : κ × α} :
    entry ∈ table.entries ↔ table.get? entry.1 = some entry.2 := by
  constructor
  · exact get?_of_mem
  · intro found
    obtain ⟨stored, member, here, value⟩ := mem_of_get? found
    have equal : entry = stored := Prod.ext (Std.LawfulEqCmp.eq_of_compare here) value.symm
    rw [equal]
    exact member

end Table

namespace KeySet

variable {κ : Type} [Ord κ] [Std.TransOrd κ] {keys : KeySet κ}

theorem contains_add {key other : κ} :
    (keys.add key).contains other = true ↔
      compare other key = .eq ∨ keys.contains other = true := by
  simp only [Table.contains, add, Table.get?_insert]
  by_cases same : compare other key = .eq <;> simp [same]

theorem contains_erase {key other : κ} :
    (keys.erase key).contains other = true ↔
      compare other key ≠ .eq ∧ keys.contains other = true := by
  rw [Table.contains_iff, Table.contains_iff, Table.get?_erase]
  by_cases same : compare other key = .eq
  · simp [same]
  · simp [same]

theorem contains_iff_mem_keys {key : κ} :
    keys.contains key = true ↔ ∃ stored ∈ keys.keys, compare key stored = .eq := by
  constructor
  · intro holds
    obtain ⟨value, found⟩ := Table.contains_iff.1 holds
    obtain ⟨entry, member, same, -⟩ := Table.mem_of_get? found
    exact ⟨entry.1, List.mem_map_of_mem member, same⟩
  · rintro ⟨stored, member, same⟩
    obtain ⟨entry, inside, rfl⟩ := List.mem_map.1 member
    refine Table.contains_iff.2 ⟨entry.2, ?_⟩
    rw [Table.get?_congr keys same]
    exact Table.get?_of_mem inside

end KeySet

end ScheduleSearch
