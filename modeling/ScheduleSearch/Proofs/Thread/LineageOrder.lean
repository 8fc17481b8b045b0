import ScheduleSearch.Thread.Order

/-!
# Threads in the order of their lineages

Comparing, equating and hashing threads comes down to their lineages.  What is read off here
holds for any names, and whichever nodes of the spawn tree two threads are known to share: each
comparison may know of other nodes.  In particular a thread stands before the threads that
descend from it, and these before its later siblings.
-/

namespace ScheduleSearch.ThreadId

variable {thread ancestor left right : ThreadId}

private theorem compare_cons (head head' : Nat) (rest rest' : List Nat) :
    compare (head :: rest) (head' :: rest') = (compare head head').then (compare rest rest') :=
  List.compareLex_cons_cons

private theorem compare_append_left (initial rest rest' : List Nat) :
    compare (initial ++ rest) (initial ++ rest') = compare rest rest' := by
  have same : compare initial initial = .eq := Std.ReflCmp.compare_self
  rw [compare_append rest rest' rfl, same]
  rfl

private theorem compare_eq_lt_iff (numbers : List Nat) :
    ∀ numbers' : List Nat, compare numbers numbers' = .lt ↔ numbers < numbers' := by
  induction numbers with
  | nil =>
      intro numbers'
      cases numbers' with
      | nil => exact ⟨nofun, fun below => absurd below (List.lt_irrefl [])⟩
      | cons head' rest' => exact ⟨fun _ => .nil, fun _ => rfl⟩
  | cons head rest inductionHypothesis =>
      intro numbers'
      cases numbers' with
      | nil => exact ⟨nofun, fun below => absurd below (List.not_lt_nil _)⟩
      | cons head' rest' =>
          rw [compare_cons, List.cons_lt_cons_iff, Ordering.then_eq_lt, Nat.compare_eq_lt,
            Nat.compare_eq_eq, inductionHypothesis]

private theorem hashWords_eq (thread : ThreadId) :
    thread.hashWords = List.replicate thread.depth 1 ++ 0 :: thread.lineage := by
  induction thread with
  | root => rfl
  | spawned parent seq name inductionHypothesis =>
      rw [hashWords, inductionHypothesis, depth, lineage, List.replicate_succ]
      simp only [List.cons_append, List.append_assoc]

private theorem hashWords_eq_iff :
    left.hashWords = right.hashWords ↔ left.lineage = right.lineage := by
  rw [hashWords_eq, hashWords_eq]
  constructor
  · intro same
    have lengths := congrArg List.length same
    simp only [List.length_append, List.length_replicate, List.length_cons,
      length_lineage] at lengths
    have level : left.depth = right.depth := by omega
    rw [level] at same
    exact (List.cons.inj (List.append_cancel_left same)).2
  · intro same
    have level := congrArg List.length same
    rw [length_lineage, length_lineage, Nat.add_right_cancel_iff] at level
    rw [level, same]

/-- The thread with other names on the way from the root down to it. -/
def renamed (naming : ThreadId → String) : ThreadId → ThreadId
  | root => root
  | spawned parent seq name =>
      spawned (parent.renamed naming) seq (naming (spawned parent seq name))

@[simp]
private theorem lineage_renamed (naming : ThreadId → String) (thread : ThreadId) :
    (thread.renamed naming).lineage = thread.lineage := by
  induction thread with
  | root => rfl
  | spawned parent seq name inductionHypothesis =>
      rw [renamed, lineage, inductionHypothesis, lineage]

theorem lineage_child_ne_root (parent : ThreadId) (seq : Nat) :
    (child parent seq).lineage ≠ root.lineage := by
  intro same
  have lengths := congrArg List.length same
  rw [length_lineage, length_lineage, child, depth, depth] at lengths
  omega

/-- The thread and its ancestors go by the names that they were spawned under. -/
inductive Native : ThreadId → Prop
  | root : Native root
  | child {parent : ThreadId} (native : Native parent) (seq : Nat) : Native (child parent seq)

/-- Under these names a thread is known from its lineage. -/
theorem Native.eq_of_lineage (native : Native left) (also : Native right)
    (same : left.lineage = right.lineage) : left = right := by
  induction native generalizing right with
  | root =>
      cases also with
      | root => rfl
      | @child parent' _ seq' => exact absurd same.symm (lineage_child_ne_root parent' seq')
  | @child parent _ seq inductionHypothesis =>
      cases also with
      | root => exact absurd same (lineage_child_ne_root parent seq)
      | @child parent' native' seq' =>
          obtain ⟨parents, seqs⟩ := List.append_inj' same rfl
          obtain rfl := inductionHypothesis native' parents
          obtain rfl := List.singleton_inj.1 seqs
          rfl

/-- The thread was spawned by `ancestor`, or by a thread that descends from it. -/
inductive Descends (ancestor : ThreadId) : ThreadId → Prop
  | child {parent : ThreadId} (same : parent.same ancestor = true) (seq : Nat) (name : String) :
      Descends ancestor (spawned parent seq name)
  | further {parent : ThreadId} (below : Descends ancestor parent) (seq : Nat) (name : String) :
      Descends ancestor (spawned parent seq name)

/-- Both have the same parent, and `right` has the higher number. -/
inductive LaterSibling : ThreadId → ThreadId → Prop
  | intro {parent parent' : ThreadId} {seq seq' : Nat} (same : parent.same parent' = true)
      (below : seq < seq') (name name' : String) :
      LaterSibling (spawned parent seq name) (spawned parent' seq' name')

private theorem Descends.lineage_eq (descends : Descends ancestor thread) :
    ∃ seq below, thread.lineage = ancestor.lineage ++ seq :: below := by
  induction descends with
  | child same seq name =>
      refine ⟨seq, [], ?_⟩
      rw [lineage, (same_iff_lineage _ _).1 same]
  | further _ seq name inductionHypothesis =>
      obtain ⟨first, below, parentLineage⟩ := inductionHypothesis
      refine ⟨first, below ++ [seq], ?_⟩
      rw [lineage, parentLineage, List.append_assoc, List.cons_append]

private theorem Descends.compare_lineage (descends : Descends ancestor thread) :
    compare ancestor.lineage thread.lineage = .lt := by
  obtain ⟨seq, below, split⟩ := descends.lineage_eq
  have shorter := compare_append_left ancestor.lineage [] (seq :: below)
  rw [List.append_nil, ← split] at shorter
  exact shorter.trans (compare_nil_left (List.cons_ne_nil seq below))

/-- The lineages of two siblings differ in the last number, and what comes behind it does not
count. -/
theorem LaterSibling.compare_lineage (sibling : LaterSibling left right) (below : List Nat) :
    compare (left.lineage ++ below) right.lineage = .lt := by
  cases sibling with
  | intro same less name name' =>
      rw [lineage, lineage, (same_iff_lineage _ _).1 same, List.append_assoc,
        compare_append_left, List.singleton_append, compare_cons, Nat.compare_eq_lt.2 less]
      rfl

/-- What is known of three threads, where each of three comparisons may know of other nodes that
the threads share. -/
structure LineageOrder (first second third : ThreadId → ThreadId → Bool)
    (x y z : ThreadId) : Prop where
  lexicographic : compareSharing first x y = compare x.lineage y.lineage
  less : compareSharing first x y = .lt ↔ x.lineage < y.lineage
  same : sameSharing first x y = true ↔ x.lineage = y.lineage
  same_iff_equal : sameSharing first x y = true ↔ compareSharing second x y = .eq
  hash : x.lineage = y.lineage ↔ x.hashWords = y.hashWords
  names : ∀ naming naming',
    compareSharing first (x.renamed naming) (y.renamed naming') = compareSharing second x y ∧
      sameSharing first (x.renamed naming) (y.renamed naming') = sameSharing second x y ∧
      (x.renamed naming).hashWords = x.hashWords
  swap : compareSharing first x y = (compareSharing second y x).swap
  total : (compareSharing first x y).isLE = true ∨ (compareSharing second y x).isLE = true
  trans : (compareSharing first x y).isLE = true → (compareSharing second y z).isLE = true →
    (compareSharing third x z).isLE = true
  descendants : Descends x y → compareSharing first x y = .lt
  siblings : LaterSibling x z → compareSharing third x z = .lt ∧
    (Descends x y → compareSharing second y z = .lt)

/-- Threads are ordered as their lineages are, a proper initial part first. -/
theorem lineageOrder {first second third : ThreadId → ThreadId → Bool}
    (soundFirst : SoundSharing first) (soundSecond : SoundSharing second)
    (soundThird : SoundSharing third) (x y z : ThreadId) :
    LineageOrder first second third x y z where
  lexicographic := compareSharing_eq_lineage soundFirst x y
  less := by
    rw [compareSharing_eq_lineage soundFirst]
    exact compare_eq_lt_iff _ _
  same := sameSharing_iff_lineage soundFirst x y
  same_iff_equal := by
    rw [sameSharing_iff_lineage soundFirst, compareSharing_eq_lineage soundSecond]
    exact Std.LawfulEqCmp.compare_eq_iff_eq.symm
  hash := hashWords_eq_iff.symm
  names := by
    intro naming naming'
    refine ⟨?_, ?_, hashWords_eq_iff.2 (lineage_renamed naming x)⟩
    · rw [compareSharing_eq_lineage soundFirst, compareSharing_eq_lineage soundSecond,
        lineage_renamed, lineage_renamed]
    · rw [Bool.eq_iff_iff, sameSharing_iff_lineage soundFirst, sameSharing_iff_lineage soundSecond,
        lineage_renamed, lineage_renamed]
  swap := by
    rw [compareSharing_eq_lineage soundFirst, compareSharing_eq_lineage soundSecond]
    exact Std.OrientedCmp.eq_swap
  total := by
    have swapped : compare x.lineage y.lineage = (compare y.lineage x.lineage).swap :=
      Std.OrientedCmp.eq_swap
    rw [compareSharing_eq_lineage soundFirst, compareSharing_eq_lineage soundSecond, swapped]
    cases compare y.lineage x.lineage <;> decide
  trans := by
    rw [compareSharing_eq_lineage soundFirst, compareSharing_eq_lineage soundSecond,
      compareSharing_eq_lineage soundThird]
    exact Std.TransCmp.isLE_trans
  descendants := by
    intro descends
    rw [compareSharing_eq_lineage soundFirst]
    exact descends.compare_lineage
  siblings := by
    intro sibling
    rw [compareSharing_eq_lineage soundSecond, compareSharing_eq_lineage soundThird]
    refine ⟨?_, fun descends => ?_⟩
    · have before := sibling.compare_lineage []
      rwa [List.append_nil] at before
    · obtain ⟨seq, below, split⟩ := descends.lineage_eq
      rw [split]
      exact sibling.compare_lineage (seq :: below)

/-- The first child of the root, a child of it that shares the node of its parent, and the second
child of the root under a name of its own. -/
theorem lineageOrder_of_children :
    SoundSharing (fun left right => decide (left = right)) ∧
      LaterSibling (child root 0) (spawned root 1 "first") ∧
      Descends (child root 0) (child (child root 0) 7) ∧
      compareSharing (fun left right => decide (left = right)) (child (child root 0) 7)
        (spawned root 1 "first") = .lt ∧
      LineageOrder (fun left right => decide (left = right)) (fun _ _ => false)
        (fun left right => decide (left = right))
        (child root 0) (child (child root 0) 7) (spawned root 1 "first") := by
  have sound : SoundSharing (fun left right => decide (left = right)) :=
    fun _ _ => of_decide_eq_true
  have law := lineageOrder sound soundSharing_never sound
    (child root 0) (child (child root 0) 7) (spawned root 1 "first")
  exact ⟨sound, .intro rfl Nat.zero_lt_one _ _, .child rfl 7 _, by decide, law⟩

end ScheduleSearch.ThreadId
