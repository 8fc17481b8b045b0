import Mathlib.Data.List.Sort
import ScheduleSearch.Proofs.State.Lookup

/-!
# Tables under other names

A table whose values are seen through a function, and a table whose keys were replaced by others.
Both go along with the operations on tables.  Keys are replaced one by one, so the entries may
change their places; what is found under a key does not depend on that, and a table is known by
what is found in it.
-/

namespace ScheduleSearch

instance : Std.LawfulEqOrd LockId where
  eq_of_compare := LockId.compare_eq_iff.1

namespace Table

variable {κ α β : Type} [Ord κ]

/-- The table with every value seen through a function. -/
def mapValues (view : α → β) (table : Table κ α) : Table κ β where
  entries := table.entries.map fun entry => (entry.1, view entry.2)
  ascending := List.pairwise_map.2 table.ascending

variable (view : α → β) (table : Table κ α)

theorem get?_mapValues (key : κ) : (table.mapValues view).get? key = (table.get? key).map view := by
  simp only [get?, entry?, mapValues, List.find?_map, Option.map_map]
  rfl

theorem contains_mapValues (key : κ) : (table.mapValues view).contains key = table.contains key := by
  rw [contains, get?_mapValues, Option.isSome_map]
  rfl

theorem isEmpty_mapValues : (table.mapValues view).isEmpty = table.isEmpty :=
  List.isEmpty_map

theorem erase_mapValues (key : κ) :
    (table.mapValues view).erase key = (table.erase key).mapValues view := by
  simp only [erase, mapValues, List.filter_map]
  rfl

theorem modify_mapValues (change : α → α) (twin : β → β)
    (same : ∀ value, twin (view value) = view (change value)) (key : κ) :
    (table.mapValues view).modify key twin = (table.modify key change).mapValues view := by
  simp only [modify, mapValues, List.map_map]
  congr 2
  funext entry
  simp only [Function.comp_apply]
  split
  · rw [same]
  · rfl

private theorem place_mapValues (key : κ) (value : α) (entries : List (κ × α)) :
    place key (view value) (entries.map fun entry => (entry.1, view entry.2)) =
      (place key value entries).map fun entry => (entry.1, view entry.2) := by
  induction entries with
  | nil => rfl
  | cons head rest inductionHypothesis =>
      obtain ⟨stored, old⟩ := head
      simp only [List.map_cons, place]
      cases compare key stored with
      | lt => rfl
      | eq => rfl
      | gt => simp only [inductionHypothesis, List.map_cons]

theorem insert_mapValues [Std.TransOrd κ] (key : κ) (value : α) :
    (table.mapValues view).insert key (view value) = (table.insert key value).mapValues view := by
  simp only [insert, mapValues, place_mapValues]

section Keys

variable [Std.TransOrd κ]

/-- The table with every key replaced by another one. -/
def mapKeys (rename : κ → κ) (table : Table κ α) : Table κ α :=
  table.entries.foldl (fun renamed entry => renamed.insert (rename entry.1) entry.2) empty

variable [Std.LawfulEqOrd κ]

/-- Tables in which the same is found are equal. -/
theorem ext_get? {left right : Table κ α} (same : ∀ key, left.get? key = right.get? key) :
    left = right := by
  have permuted : left.entries.Perm right.entries := by
    apply (List.perm_ext_iff_of_nodup left.nodup_entries right.nodup_entries).2
    intro entry
    rw [mem_entries_iff, mem_entries_iff, same]
  have equal : left.entries = right.entries := by
    apply List.Perm.eq_of_pairwise _ left.ascending right.ascending permuted
    intro earlier later _ _ below above
    rw [Std.OrientedCmp.gt_of_lt above] at below
    cases below
  cases left
  cases right
  cases equal
  rfl

variable {rename : κ → κ} (injective : Function.Injective rename)

include injective

omit [Std.TransOrd κ] in
private theorem compare_rename (left right : κ) :
    compare (rename left) (rename right) = .eq ↔ compare left right = .eq := by
  rw [Std.LawfulEqCmp.compare_eq_iff_eq, Std.LawfulEqCmp.compare_eq_iff_eq, injective.eq_iff]

private theorem get?_foldl_insert (key : κ) (entries : List (κ × α)) :
    ∀ renamed : Table κ α,
      entries.Pairwise (fun earlier later => compare earlier.1 later.1 = .lt) →
      (entries.foldl (fun renamed entry => renamed.insert (rename entry.1) entry.2) renamed).get?
          (rename key) =
        ((entries.find? fun entry => compare key entry.1 == .eq).map (·.2)).or
          (renamed.get? (rename key)) := by
  induction entries with
  | nil =>
      intro renamed _
      rfl
  | cons head rest inductionHypothesis =>
      intro renamed ascending
      obtain ⟨below, restAscending⟩ := List.pairwise_cons.1 ascending
      rw [List.foldl_cons, inductionHypothesis _ restAscending, get?_insert, List.find?_cons]
      by_cases here : compare key head.1 = .eq
      · have absent : rest.find? (fun entry => compare key entry.1 == .eq) = none := by
          rw [List.find?_eq_none]
          intro later member found
          have larger := Std.TransCmp.lt_of_eq_of_lt here (below later member)
          rw [beq_iff_eq.1 found] at larger
          cases larger
        rw [if_pos ((compare_rename injective key head.1).2 here), absent, here]
        rfl
      · rw [if_neg (fun equal => here ((compare_rename injective key head.1).1 equal)),
          beq_eq_false_iff_ne.2 here]

/-- What was stored under a key is found under the one that replaces it. -/
theorem get?_mapKeys (table : Table κ α) (key : κ) :
    (table.mapKeys rename).get? (rename key) = table.get? key := by
  rw [mapKeys, get?_foldl_insert injective key table.entries empty table.ascending, get?_empty,
    Option.or_none]
  rfl

omit injective in
private theorem get?_mapKeys_of_ne (table : Table κ α) {other : κ}
    (foreign : ∀ key, other ≠ rename key) :
    (table.mapKeys rename).get? other = none := by
  have kept : ∀ (entries : List (κ × α)) (renamed : Table κ α), renamed.get? other = none →
      (entries.foldl (fun renamed entry => renamed.insert (rename entry.1) entry.2)
        renamed).get? other = none := by
    intro entries
    induction entries with
    | nil => exact fun _ none => none
    | cons head rest inductionHypothesis =>
        intro renamed none
        apply inductionHypothesis
        rw [get?_insert, if_neg (fun equal => foreign _ (Std.LawfulEqCmp.eq_of_compare equal)), none]
  exact kept table.entries empty rfl

private theorem eq_mapKeys {table renamed : Table κ α}
    (same : ∀ key, renamed.get? (rename key) = table.get? key)
    (others : ∀ other, (∀ key, other ≠ rename key) → renamed.get? other = none) :
    renamed = table.mapKeys rename := by
  apply ext_get?
  intro other
  by_cases known : ∃ key, other = rename key
  · obtain ⟨key, rfl⟩ := known
    rw [same, get?_mapKeys injective]
  · have foreign := not_exists.1 known
    rw [others other foreign, get?_mapKeys_of_ne table foreign]

theorem insert_mapKeys (table : Table κ α) (key : κ) (value : α) :
    (table.mapKeys rename).insert (rename key) value = (table.insert key value).mapKeys rename := by
  apply eq_mapKeys injective
  · intro other
    simp only [get?_insert, compare_rename injective, get?_mapKeys injective]
  · intro other foreign
    rw [get?_insert, if_neg (fun equal => foreign key (Std.LawfulEqCmp.eq_of_compare equal)),
      get?_mapKeys_of_ne table foreign]

theorem erase_mapKeys (table : Table κ α) (key : κ) :
    (table.mapKeys rename).erase (rename key) = (table.erase key).mapKeys rename := by
  apply eq_mapKeys injective
  · intro other
    simp only [get?_erase, compare_rename injective, get?_mapKeys injective]
  · intro other foreign
    rw [get?_erase, if_neg (fun equal => foreign key (Std.LawfulEqCmp.eq_of_compare equal)),
      get?_mapKeys_of_ne table foreign]

end Keys

end Table

end ScheduleSearch
