/-!
# Ordered tables

A `Table κ α` is a finite map from keys to values whose entries stand in strictly ascending
order of their keys, so every key occurs at most once and two tables with the same entries
are equal.  Keys are told apart by `compare` alone: two keys that compare as equal are the
same key even where they are shown differently, and the key that was stored first is the one
that stays.

The view of a table is `get?`, the value at a key.  The lemmas of this module say what each
operation does to that view.
-/

namespace ScheduleSearch

/-- A finite map with its entries in strictly ascending order of keys. -/
structure Table (κ : Type) (α : Type) [Ord κ] where
  /-- The entries, smallest key first. -/
  entries : List (κ × α)
  /-- Every key is smaller than all keys after it. -/
  ascending : entries.Pairwise (fun earlier later => compare earlier.1 later.1 = .lt)

namespace Table

variable {κ α β : Type} [Ord κ]

def empty : Table κ α where
  entries := []
  ascending := .nil

instance : Inhabited (Table κ α) := ⟨empty⟩

instance : EmptyCollection (Table κ α) := ⟨empty⟩

instance [DecidableEq κ] [DecidableEq α] : DecidableEq (Table κ α) := fun left right =>
  decidable_of_iff (left.entries = right.entries) <| by
    constructor
    · intro same
      cases left
      cases right
      cases same
      rfl
    · intro same
      rw [same]

/-- The entry stored under `key`, with the key as it was first stored. -/
def entry? (table : Table κ α) (key : κ) : Option (κ × α) :=
  table.entries.find? (fun entry => compare key entry.1 == .eq)

/-- The value stored under `key`. -/
def get? (table : Table κ α) (key : κ) : Option α :=
  (table.entry? key).map (·.2)

/-- Whether something is stored under `key`. -/
def contains (table : Table κ α) (key : κ) : Bool :=
  (table.get? key).isSome

/-- The number of entries. -/
def size (table : Table κ α) : Nat :=
  table.entries.length

def isEmpty (table : Table κ α) : Bool :=
  table.entries.isEmpty

def keys (table : Table κ α) : List κ :=
  table.entries.map (·.1)

/-- The values in the order of their keys. -/
def values (table : Table κ α) : List α :=
  table.entries.map (·.2)

/-- Removes the entry under `key`, if there is one. -/
def erase (table : Table κ α) (key : κ) : Table κ α where
  entries := table.entries.filter (fun entry => compare key entry.1 != .eq)
  ascending := table.ascending.filter _

/-- Changes the value under `key`, if there is one. -/
def modify (table : Table κ α) (key : κ) (change : α → α) : Table κ α where
  entries := table.entries.map fun entry =>
    if compare key entry.1 == .eq then (entry.1, change entry.2) else entry
  ascending := by
    rw [List.pairwise_map]
    refine table.ascending.imp ?_
    intro earlier later below
    by_cases first : compare key earlier.1 == .eq <;>
      by_cases second : compare key later.1 == .eq <;>
      simpa [first, second] using below

/-- Places a value under a key in a list of entries, keeping a key that is already there. -/
def place (key : κ) (value : α) : List (κ × α) → List (κ × α)
  | [] => [(key, value)]
  | (stored, old) :: rest =>
      match compare key stored with
      | .lt => (key, value) :: (stored, old) :: rest
      | .eq => (stored, value) :: rest
      | .gt => (stored, old) :: place key value rest

theorem mem_place {key : κ} {value : α} {entry : κ × α} {entries : List (κ × α)}
    (member : entry ∈ place key value entries) :
    entry = (key, value) ∨ (∃ other ∈ entries, entry.1 = other.1) := by
  induction entries with
  | nil => exact Or.inl (by simpa [place] using member)
  | cons head rest ih =>
      obtain ⟨stored, old⟩ := head
      unfold place at member
      split at member
      · rcases List.mem_cons.1 member with same | later
        · exact Or.inl same
        · exact Or.inr ⟨entry, later, rfl⟩
      · rcases List.mem_cons.1 member with same | later
        · exact Or.inr ⟨(stored, old), List.mem_cons_self, by rw [same]⟩
        · exact Or.inr ⟨entry, List.mem_cons_of_mem _ later, rfl⟩
      · rcases List.mem_cons.1 member with same | later
        · exact Or.inr ⟨(stored, old), List.mem_cons_self, by rw [same]⟩
        · rcases ih later with fresh | ⟨other, known, keyed⟩
          · exact Or.inl fresh
          · exact Or.inr ⟨other, List.mem_cons_of_mem _ known, keyed⟩

theorem place_ascending [Std.TransOrd κ] (key : κ) (value : α) {entries : List (κ × α)}
    (ascending : entries.Pairwise (fun earlier later => compare earlier.1 later.1 = .lt)) :
    (place key value entries).Pairwise
      (fun earlier later => compare earlier.1 later.1 = .lt) := by
  induction entries with
  | nil => simp [place]
  | cons head rest ih =>
      obtain ⟨stored, old⟩ := head
      obtain ⟨headBelow, restAscending⟩ := List.pairwise_cons.1 ascending
      unfold place
      split
      next below =>
        refine List.pairwise_cons.2 ⟨?_, ascending⟩
        intro later member
        rcases List.mem_cons.1 member with same | further
        · rw [same]
          exact below
        · exact Std.TransCmp.lt_trans below (headBelow later further)
      next =>
        exact List.pairwise_cons.2 ⟨headBelow, restAscending⟩
      next above =>
        refine List.pairwise_cons.2 ⟨?_, ih restAscending⟩
        intro later member
        rcases mem_place member with fresh | ⟨other, known, keyed⟩
        · rw [fresh]
          exact Std.OrientedCmp.lt_of_gt above
        · rw [keyed]
          exact headBelow other known

/-- Stores `value` under `key`.  A key that is already stored keeps the spelling it had. -/
def insert [Std.TransOrd κ] (table : Table κ α) (key : κ) (value : α) : Table κ α where
  entries := place key value table.entries
  ascending := place_ascending key value table.ascending

@[simp] theorem get?_empty (key : κ) : (empty : Table κ α).get? key = none := rfl

theorem find?_place_self [Std.TransOrd κ] (key : κ) (value : α) (entries : List (κ × α)) :
    ((place key value entries).find? (fun entry => compare key entry.1 == .eq)).map (·.2) =
      some value := by
  induction entries with
  | nil => simp [place, Std.ReflCmp.compare_self]
  | cons head rest ih =>
      obtain ⟨stored, old⟩ := head
      unfold place
      split
      next => simp [Std.ReflCmp.compare_self]
      next same => simp [same]
      next above => simpa [above] using ih

theorem find?_place_of_ne [Std.TransOrd κ] {key other : κ} (value : α)
    (different : compare other key ≠ .eq) (entries : List (κ × α)) :
    ((place key value entries).find? (fun entry => compare other entry.1 == .eq)).map (·.2) =
      (entries.find? (fun entry => compare other entry.1 == .eq)).map (·.2) := by
  induction entries with
  | nil => simp [place, different]
  | cons head rest ih =>
      obtain ⟨stored, old⟩ := head
      unfold place
      split
      next => simp [List.find?_cons, different]
      next same =>
        have apart : compare other stored ≠ .eq := fun equal =>
          different (Std.TransCmp.eq_trans equal (Std.OrientedCmp.eq_symm same))
        simp [apart]
      next =>
        by_cases here : compare other stored = .eq
        · simp [here]
        · simpa [List.find?_cons, here] using ih

/-- After an insertion the key holds the new value and every other key what it held. -/
theorem get?_insert [Std.TransOrd κ] (table : Table κ α) (key other : κ) (value : α) :
    (table.insert key value).get? other =
      if compare other key = .eq then some value else table.get? other := by
  by_cases same : compare other key = .eq
  · rw [if_pos same]
    have alike : ∀ stored, compare other stored = compare key stored := fun _ =>
      Std.TransCmp.congr_left same
    simp only [get?, entry?, insert, alike]
    exact find?_place_self key value table.entries
  · rw [if_neg same]
    exact find?_place_of_ne value same table.entries

/-- After an erasure the key holds nothing and every other key what it held. -/
theorem get?_erase [Std.TransOrd κ] (table : Table κ α) (key other : κ) :
    (table.erase key).get? other =
      if compare other key = .eq then none else table.get? other := by
  simp only [get?, entry?, erase, List.find?_filter]
  by_cases same : compare other key = .eq
  · have alike : ∀ stored, compare other stored = compare key stored := fun _ =>
      Std.TransCmp.congr_left same
    simp [same, alike]
  · rw [if_neg same]
    congr 2
    funext entry
    by_cases found : compare other entry.1 = .eq
    · have apart : compare key entry.1 ≠ .eq := fun equal =>
        same (Std.TransCmp.eq_trans found (Std.OrientedCmp.eq_symm equal))
      simp [found, apart]
    · simp [found]

end Table

/-- A set of keys, kept as a table that stores nothing with them. -/
abbrev KeySet (κ : Type) [Ord κ] : Type := Table κ Unit

namespace KeySet

variable {κ : Type} [Ord κ]

/-- Adds a key.  A key that is already there keeps the spelling it had. -/
def add [Std.TransOrd κ] (keys : KeySet κ) (key : κ) : KeySet κ :=
  keys.insert key ()

/-- The set of the keys of a list; of equal keys the first is kept. -/
def ofList [Std.TransOrd κ] (keys : List κ) : KeySet κ :=
  keys.foldl add Table.empty

end KeySet

end ScheduleSearch
