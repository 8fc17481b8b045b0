import ScheduleSearch.Proofs.State.Lookup

/-!
# Queues of waiting threads

`Queued queue thread` says that a thread has a place in a queue, whatever name it is listed
under, and `Distinct queue` that no thread has two places.
-/

namespace ScheduleSearch

/-- The thread has a place in the queue. -/
def Queued (queue : List Waiter) (thread : ThreadId) : Prop :=
  ∃ waiter ∈ queue, waiter.thread.lineage = thread.lineage

instance (queue : List Waiter) (thread : ThreadId) : Decidable (Queued queue thread) :=
  inferInstanceAs (Decidable (∃ waiter ∈ queue, waiter.thread.lineage = thread.lineage))

theorem queued_congr {queue : List Waiter} {left right : ThreadId}
    (same : left.lineage = right.lineage) : Queued queue left ↔ Queued queue right := by
  simp only [Queued, same]

@[simp]
theorem not_queued_nil (thread : ThreadId) : ¬ Queued [] thread := by
  rintro ⟨waiter, member, -⟩
  cases member

@[simp]
theorem queued_append {first second : List Waiter} {thread : ThreadId} :
    Queued (first ++ second) thread ↔ Queued first thread ∨ Queued second thread := by
  simp only [Queued, List.mem_append, or_and_right, exists_or]

@[simp]
private theorem queued_singleton {waiter : Waiter} {thread : ThreadId} :
    Queued [waiter] thread ↔ waiter.thread.lineage = thread.lineage := by
  simp [Queued]

theorem queued_cons {head : Waiter} {rest : List Waiter} {thread : ThreadId} :
    Queued (head :: rest) thread ↔
      head.thread.lineage = thread.lineage ∨ Queued rest thread := by
  simp [Queued]

/-- No thread has two places in the queue. -/
def Distinct (queue : List Waiter) : Prop :=
  queue.Pairwise fun earlier later => earlier.thread.lineage ≠ later.thread.lineage

theorem distinct_append {first second : List Waiter} :
    Distinct (first ++ second) ↔
      Distinct first ∧ Distinct second ∧
        ∀ thread, Queued first thread → ¬ Queued second thread := by
  rw [Distinct, List.pairwise_append]
  refine and_congr_right fun _ => and_congr_right fun _ => ?_
  constructor
  · rintro across thread ⟨left, leftMember, leftSame⟩ ⟨right, rightMember, rightSame⟩
    exact across left leftMember right rightMember (leftSame.trans rightSame.symm)
  · intro apart left leftMember right rightMember same
    exact apart left.thread ⟨left, leftMember, rfl⟩ ⟨right, rightMember, same.symm⟩

private theorem savedDepth?_eq_none_iff {queue : List Waiter} {thread : ThreadId} :
    savedDepth? queue thread = none ↔ ¬ Queued queue thread := by
  simp only [savedDepth?, Option.map_eq_none_iff, List.find?_eq_none, ThreadId.same_iff_lineage,
    Queued, not_exists, not_and]

theorem exists_savedDepth? {queue : List Waiter} {thread : ThreadId}
    (queued : Queued queue thread) : ∃ depth, savedDepth? queue thread = some depth := by
  cases found : savedDepth? queue thread with
  | none => exact absurd queued (savedDepth?_eq_none_iff.1 found)
  | some depth => exact ⟨depth, rfl⟩

theorem mem_of_savedDepth? {queue : List Waiter} {thread : ThreadId} {depth : Nat}
    (saved : savedDepth? queue thread = some depth) :
    ∃ waiter ∈ queue, waiter.thread.lineage = thread.lineage ∧ waiter.depth = depth := by
  obtain ⟨waiter, found, rfl⟩ := Option.map_eq_some_iff.1 saved
  have same := List.find?_some found
  exact ⟨waiter, List.mem_of_find?_eq_some found, (ThreadId.same_iff_lineage _ _).1 same, rfl⟩

theorem withoutWaiter_sublist (queue : List Waiter) (thread : ThreadId) :
    (withoutWaiter queue thread).Sublist queue :=
  List.eraseP_sublist

/-- In a queue without repetitions a thread that gives up its place is gone. -/
theorem queued_withoutWaiter {queue : List Waiter} (distinct : Distinct queue)
    {thread other : ThreadId} :
    Queued (withoutWaiter queue thread) other ↔
      Queued queue other ∧ other.lineage ≠ thread.lineage := by
  induction queue with
  | nil => simp [withoutWaiter]
  | cons head rest inductionHypothesis =>
      obtain ⟨apart, restDistinct⟩ := List.pairwise_cons.1 distinct
      by_cases here : head.thread.lineage = thread.lineage
      · have removed : withoutWaiter (head :: rest) thread = rest := by
          simp [withoutWaiter, ThreadId.same_iff_lineage, here]
        rw [removed, queued_cons]
        constructor
        · intro queued
          refine ⟨Or.inr queued, fun same => ?_⟩
          obtain ⟨waiter, member, equal⟩ := queued
          exact apart waiter member (here.trans (same.symm.trans equal.symm))
        · rintro ⟨first | later, different⟩
          · exact absurd (first.symm.trans here) different
          · exact later
      · have kept : withoutWaiter (head :: rest) thread = head :: withoutWaiter rest thread := by
          simp [withoutWaiter, ThreadId.same_iff_lineage, here]
        rw [kept, queued_cons, queued_cons, inductionHypothesis restDistinct]
        constructor
        · rintro (first | ⟨later, different⟩)
          · exact ⟨Or.inl first, fun same => here (first.trans same)⟩
          · exact ⟨Or.inr later, different⟩
        · rintro ⟨first | later, different⟩
          · exact Or.inl first
          · exact Or.inr ⟨later, different⟩

/-- A place of a queue without the name its thread is listed under. -/
def Waiter.place (waiter : Waiter) : List Nat × Nat := (waiter.thread.lineage, waiter.depth)

/-- Two queues hold the same threads at the same depths, whatever their order. -/
def Rearranged (first second : List Waiter) : Prop :=
  (first.map Waiter.place).Perm (second.map Waiter.place)

theorem Rearranged.symm {first second : List Waiter} (order : Rearranged first second) :
    Rearranged second first :=
  List.Perm.symm order

theorem Rearranged.trans {first second third : List Waiter} (order : Rearranged first second)
    (further : Rearranged second third) : Rearranged first third :=
  List.Perm.trans order further

theorem rearranged_of_perm {first second : List Waiter} (order : first.Perm second) :
    Rearranged first second :=
  order.map Waiter.place

theorem Rearranged.append {first second : List Waiter} (order : Rearranged first second)
    (front back : List Waiter) : Rearranged (front ++ first ++ back) (front ++ second ++ back) := by
  simp only [Rearranged, List.map_append]
  exact (order.append_left _).append_right _

theorem rearranged_cons {front back : List Waiter} (waiter : Waiter) :
    Rearranged (front ++ [waiter] ++ back) (waiter :: (front ++ back)) := by
  rw [List.append_assoc]
  exact rearranged_of_perm List.perm_middle

theorem Rearranged.distinct {first second : List Waiter} (order : Rearranged first second)
    (distinct : Distinct second) : Distinct first := by
  have apart : (second.map Waiter.place).Pairwise fun left right => left.1 ≠ right.1 :=
    List.pairwise_map.2 distinct
  have symmetric : ∀ {left right : List Nat × Nat}, left.1 ≠ right.1 → right.1 ≠ left.1 :=
    fun different => Ne.symm different
  have rearranged := (List.Perm.pairwise_iff symmetric order).2 apart
  rw [List.pairwise_map] at rearranged
  exact rearranged

private theorem Rearranged.exists_place {first second : List Waiter}
    (order : Rearranged first second) {waiter : Waiter} (member : waiter ∈ first) :
    ∃ other ∈ second, other.place = waiter.place :=
  List.mem_map.1 (List.Perm.subset order (List.mem_map_of_mem member))

theorem Rearranged.queued {first second : List Waiter} (order : Rearranged first second)
    {thread : ThreadId} (queued : Queued first thread) : Queued second thread := by
  obtain ⟨waiter, member, same⟩ := queued
  obtain ⟨other, otherMember, place⟩ := order.exists_place member
  exact ⟨other, otherMember, (congrArg Prod.fst place).trans same⟩

theorem Rearranged.saved {first second : List Waiter} (order : Rearranged first second)
    (saved : ∀ waiter ∈ second, 0 < waiter.depth) : ∀ waiter ∈ first, 0 < waiter.depth := by
  intro waiter member
  obtain ⟨other, otherMember, place⟩ := order.exists_place member
  have depth : other.depth = waiter.depth := congrArg Prod.snd place
  rw [← depth]
  exact saved other otherMember

theorem Distinct.cons {queue : List Waiter} (distinct : Distinct queue) {waiter : Waiter}
    (absent : ¬ Queued queue waiter.thread) : Distinct (waiter :: queue) := by
  refine List.pairwise_cons.2 ⟨?_, distinct⟩
  intro other member same
  exact absent ⟨other, member, same.symm⟩

/-- A queue is, but for the order, the place a thread gives up and what is left. -/
theorem rearranged_withoutWaiter {queue : List Waiter} {thread : ThreadId} {depth : Nat}
    (saved : savedDepth? queue thread = some depth) :
    Rearranged queue (⟨thread, depth⟩ :: withoutWaiter queue thread) := by
  induction queue with
  | nil => cases saved
  | cons head rest inductionHypothesis =>
      by_cases here : head.thread.lineage = thread.lineage
      · have same : head.thread.same thread = true := (ThreadId.same_iff_lineage _ _).2 here
        have depthHere : head.depth = depth := by simpa [savedDepth?, same] using saved
        have left : withoutWaiter (head :: rest) thread = rest := by simp [withoutWaiter, same]
        have place : head.place = Waiter.place ⟨thread, depth⟩ := by
          simp only [Waiter.place, here, depthHere]
        simp only [Rearranged, left, List.map_cons, place]
        exact List.Perm.refl _
      · have different : head.thread.same thread = false := by
          rw [← Bool.not_eq_true, ThreadId.same_iff_lineage]
          exact here
        have later : savedDepth? rest thread = some depth := by
          simpa [savedDepth?, different] using saved
        have left : withoutWaiter (head :: rest) thread = head :: withoutWaiter rest thread := by
          simp [withoutWaiter, different]
        rw [left]
        exact List.Perm.trans ((inductionHypothesis later).cons head.place)
          (List.Perm.swap _ _ _)

/-- The table records, for each thread, the lock in whose queue it has a place. -/
def Tracks (places : Table ThreadId LockId) (queueOf : LockId → List Waiter) : Prop :=
  ∀ thread lock, places.get? thread = some lock ↔ Queued (queueOf lock) thread

/-- A thread that has no place takes the last one of a queue. -/
theorem Tracks.insert {places : Table ThreadId LockId} {queueOf : LockId → List Waiter}
    (tracks : Tracks places queueOf) {thread : ThreadId} (free : places.get? thread = none)
    (lock : LockId) (depth : Nat) :
    (∀ other, (places.insert thread lock).get? other = some lock ↔
      Queued (queueOf lock ++ [⟨thread, depth⟩]) other) ∧
    ∀ other elsewhere, elsewhere ≠ lock →
      ((places.insert thread lock).get? other = some elsewhere ↔
        places.get? other = some elsewhere) := by
  simp only [Table.get?_insert, ThreadId.compare_eq_iff, queued_append, queued_singleton]
  constructor
  · intro other
    by_cases here : other.lineage = thread.lineage
    · simp [here]
    · have apart : ¬ thread.lineage = other.lineage := fun equal => here equal.symm
      rw [if_neg here, or_iff_left apart]
      exact tracks other lock
  · intro other elsewhere different
    by_cases here : other.lineage = thread.lineage
    · rw [if_pos here, Table.get?_congr places (ThreadId.compare_eq_iff.2 here), free]
      simp [Ne.symm different]
    · rw [if_neg here]

/-- A thread gives up its place. -/
theorem Tracks.erase {places : Table ThreadId LockId} {queueOf : LockId → List Waiter}
    (tracks : Tracks places queueOf) {thread : ThreadId} {lock : LockId}
    (found : places.get? thread = some lock) (distinct : Distinct (queueOf lock)) :
    (∀ other, (places.erase thread).get? other = some lock ↔
      Queued (withoutWaiter (queueOf lock) thread) other) ∧
    ∀ other elsewhere, elsewhere ≠ lock →
      ((places.erase thread).get? other = some elsewhere ↔
        places.get? other = some elsewhere) := by
  simp only [Table.get?_erase, ThreadId.compare_eq_iff, queued_withoutWaiter distinct]
  constructor
  · intro other
    by_cases here : other.lineage = thread.lineage
    · simp [here]
    · rw [if_neg here, and_iff_left here]
      exact tracks other lock
  · intro other elsewhere different
    by_cases here : other.lineage = thread.lineage
    · rw [if_pos here, Table.get?_congr places (ThreadId.compare_eq_iff.2 here), found]
      simp [Ne.symm different]
    · rw [if_neg here]

end ScheduleSearch
