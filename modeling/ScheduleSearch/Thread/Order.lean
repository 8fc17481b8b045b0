import ScheduleSearch.Thread.Id

/-!
# The order of threads

Threads are compared by climbing to the root, but the order is the lexicographic order of
their lineages, a proper initial part first.  So a parent stands before its descendants, and
these before its next sibling.  Main statements: `compareSharing_eq_lineage` and
`same_iff_lineage`.
-/

namespace ScheduleSearch.ThreadId

/-- `shared` reports two nodes as one only where they are one. -/
def SoundSharing (shared : ThreadId → ThreadId → Bool) : Prop :=
  ∀ left right, shared left right = true → left = right

theorem soundSharing_never : SoundSharing (fun _ _ => false) := by
  intro left right reported
  simp at reported

@[simp] theorem length_lineage (thread : ThreadId) :
    thread.lineage.length = thread.depth + 1 := by
  induction thread with
  | root => rfl
  | spawned parent seq name ih => simp [lineage, depth, ih]

theorem depth_ancestor (thread : ThreadId) (levels : Nat) :
    (thread.ancestor levels).depth = thread.depth - levels := by
  induction levels generalizing thread with
  | zero => cases thread <;> simp [ancestor]
  | succ levels ih =>
      cases thread with
      | root => simp [ancestor, depth]
      | spawned parent seq name =>
          simp only [ancestor, depth, ih]
          omega

theorem compare_append {first first' : List Nat} (second second' : List Nat)
    (equalLength : first.length = first'.length) :
    compare (first ++ second) (first' ++ second') =
      (compare first first').then (compare second second') := by
  induction first generalizing first' with
  | nil =>
      cases first' with
      | nil => rfl
      | cons head' rest' => simp at equalLength
  | cons head rest ih =>
      cases first' with
      | nil => simp at equalLength
      | cons head' rest' =>
          have restLength : rest.length = rest'.length := by simpa using equalLength
          have unfoldCons : ∀ (left right : Nat) (lefts rights : List Nat),
              compare (left :: lefts) (right :: rights) =
                (compare left right).then (compare lefts rights) :=
            fun _ _ _ _ => List.compareLex_cons_cons
          rw [List.cons_append, List.cons_append, unfoldCons, unfoldCons, ih restLength,
            Ordering.then_assoc]

theorem compare_nil_left {numbers : List Nat} (nonempty : numbers ≠ []) :
    compare [] numbers = .lt := by
  cases numbers with
  | nil => exact absurd rfl nonempty
  | cons head rest => rfl

theorem compare_nil_right {numbers : List Nat} (nonempty : numbers ≠ []) :
    compare numbers [] = .gt := by
  cases numbers with
  | nil => exact absurd rfl nonempty
  | cons head rest => rfl

/-- A lineage begins with the lineage of every ancestor, and what remains has one number for
each generation between the two. -/
theorem lineage_eq_ancestor_append (thread : ThreadId) {levels : Nat}
    (within : levels ≤ thread.depth) :
    ∃ below, thread.lineage = (thread.ancestor levels).lineage ++ below ∧
      below.length = levels := by
  induction levels generalizing thread with
  | zero => exact ⟨[], by cases thread <;> simp [ancestor], rfl⟩
  | succ levels ih =>
      cases thread with
      | root => simp [depth] at within
      | spawned parent seq name =>
          simp only [depth, Nat.add_le_add_iff_right] at within
          obtain ⟨below, split, size⟩ := ih parent within
          refine ⟨below ++ [seq], ?_, by simp [size]⟩
          simp only [lineage, ancestor, split, List.append_assoc]

theorem climb_eq_lineage {shared : ThreadId → ThreadId → Bool} (sound : SoundSharing shared)
    (verdict : Ordering) {left right : ThreadId} (level : left.depth = right.depth) :
    climb shared verdict left right = (compare left.lineage right.lineage).then verdict := by
  induction left generalizing right verdict with
  | root =>
      cases right with
      | root => simp [climb, lineage, Std.ReflCmp.compare_self, Ordering.then]
      | spawned parent seq name => simp [depth] at level
  | spawned parent seq name ih =>
      cases right with
      | root => simp [depth] at level
      | spawned parent' seq' name' =>
          have parentLevel : parent.depth = parent'.depth := by simpa [depth] using level
          rw [climb]
          split
          next reported =>
            rw [sound _ _ reported]
            simp [Std.ReflCmp.compare_self, Ordering.then]
          next =>
            rw [ih _ parentLevel]
            simp only [lineage]
            rw [compare_append _ _ (by simp [parentLevel]), Ordering.then_assoc]
            congr 1
            by_cases equal : seq = seq'
            · subst equal
              simp [Std.ReflCmp.compare_self, Ordering.then]
            · have unequal : compare seq seq' ≠ .eq := fun compared =>
                equal (Std.LawfulEqCmp.eq_of_compare compared)
              rw [if_neg equal]
              have shape :
                  compare [seq] [seq'] = (compare seq seq').then (compare ([] : List Nat) []) :=
                List.compareLex_cons_cons
              rw [shape]
              cases compared : compare seq seq' with
              | lt => rfl
              | gt => rfl
              | eq => exact absurd compared unequal

/-- The order of threads is the lexicographic order of their lineages, whichever nodes of the
spawn tree the two are known to share. -/
theorem compareSharing_eq_lineage {shared : ThreadId → ThreadId → Bool}
    (sound : SoundSharing shared) (left right : ThreadId) :
    compareSharing shared left right = compare left.lineage right.lineage := by
  have level :
      (left.ancestor (left.depth - min left.depth right.depth)).depth =
        (right.ancestor (right.depth - min left.depth right.depth)).depth := by
    simp only [depth_ancestor]
    omega
  simp only [compareSharing]
  rw [climb_eq_lineage sound .eq level]
  obtain ⟨leftBelow, leftSplit, leftSize⟩ :=
    lineage_eq_ancestor_append left (Nat.sub_le left.depth (min left.depth right.depth))
  obtain ⟨rightBelow, rightSplit, rightSize⟩ :=
    lineage_eq_ancestor_append right (Nat.sub_le right.depth (min left.depth right.depth))
  rw [leftSplit, rightSplit, compare_append _ _ (by simp [level]), Ordering.then_assoc]
  congr 1
  rcases Nat.lt_trichotomy left.depth right.depth with below | equal | above
  · have leftNone : leftBelow = [] := List.eq_nil_of_length_eq_zero (by omega)
    have rightSome : rightBelow ≠ [] := fun none => by
      rw [none] at rightSize
      simp only [List.length_nil] at rightSize
      omega
    rw [leftNone, compare_nil_left rightSome, Nat.compare_eq_lt.2 below]
    rfl
  · have leftNone : leftBelow = [] := List.eq_nil_of_length_eq_zero (by omega)
    have rightNone : rightBelow = [] := List.eq_nil_of_length_eq_zero (by omega)
    rw [leftNone, rightNone, Nat.compare_eq_eq.2 equal]
    rfl
  · have rightNone : rightBelow = [] := List.eq_nil_of_length_eq_zero (by omega)
    have leftSome : leftBelow ≠ [] := fun none => by
      rw [none] at leftSize
      simp only [List.length_nil] at leftSize
      omega
    rw [rightNone, compare_nil_right leftSome, Nat.compare_eq_gt.2 above]
    rfl

theorem compare_eq_lineage (left right : ThreadId) :
    compare left right = compare left.lineage right.lineage :=
  compareSharing_eq_lineage soundSharing_never left right

instance : Std.TransOrd ThreadId where
  eq_swap := by
    intro left right
    rw [compare_eq_lineage, compare_eq_lineage]
    exact Std.OrientedCmp.eq_swap
  isLE_trans := by
    intro first second third
    rw [compare_eq_lineage, compare_eq_lineage, compare_eq_lineage]
    exact Std.TransCmp.isLE_trans

/-- Two identities are of the same thread exactly when their lineages agree. -/
theorem sameSharing_iff_lineage {shared : ThreadId → ThreadId → Bool}
    (sound : SoundSharing shared) (left right : ThreadId) :
    sameSharing shared left right = true ↔ left.lineage = right.lineage := by
  induction left generalizing right with
  | root =>
      cases right with
      | root => simp [sameSharing]
      | spawned parent seq name =>
          simp only [sameSharing, Bool.false_eq_true, false_iff]
          intro equal
          have sizes := congrArg List.length equal
          simp [lineage] at sizes
  | spawned parent seq name ih =>
      cases right with
      | root =>
          simp only [sameSharing, Bool.false_eq_true, false_iff]
          intro equal
          have sizes := congrArg List.length equal
          simp [lineage] at sizes
      | spawned parent' seq' name' =>
          simp only [sameSharing, Bool.or_eq_true, Bool.and_eq_true, beq_iff_eq, ih, lineage,
            List.append_singleton_inj]
          constructor
          · rintro (reported | ⟨equal, above⟩)
            · have one := sound _ _ reported
              injection one with oneParent oneSeq
              exact ⟨by rw [oneParent], oneSeq⟩
            · exact ⟨above, equal⟩
          · rintro ⟨above, equal⟩
            exact Or.inr ⟨equal, above⟩

theorem same_iff_lineage (left right : ThreadId) :
    left.same right = true ↔ left.lineage = right.lineage :=
  sameSharing_iff_lineage soundSharing_never left right

theorem same_iff_compare (left right : ThreadId) :
    left.same right = true ↔ compare left right = .eq := by
  rw [same_iff_lineage, compare_eq_lineage]
  exact Std.LawfulEqCmp.compare_eq_iff_eq.symm

end ScheduleSearch.ThreadId
