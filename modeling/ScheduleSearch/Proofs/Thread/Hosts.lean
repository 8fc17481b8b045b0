import Mathlib.Data.Set.Card
import ScheduleSearch.Proofs.State.Sizes
import ScheduleSearch.Thread.Registry

/-!
# Host threads and the threads they carry

A registry finds the thread that a host thread carries and the host thread that carries a thread,
each in a table of its own.  As long as a host thread and a thread are bound to each other only
while both are free, the two tables are inverse to each other, and a pair is taken out of both
of them or of none.  A thread may be named in any spelling; it is told by its lineage.
-/

namespace ScheduleSearch.Registry

variable {registry after : Registry} {host : Host} {thread : ThreadId}

/-- The host thread carries nothing and the thread is carried by nothing. -/
structure Free (registry : Registry) (host : Host) (thread : ThreadId) : Prop where
  carriesNothing : registry.threadOf? host = none
  isUncarried : registry.hostOf? thread = none

/-- The registry comes of calls on an empty one in which a host thread and a thread are bound
to each other only while both are free. -/
inductive Orderly : Registry → Prop
  | empty : Orderly empty
  | create {registry : Registry} {host : Host} {parent : Option ThreadId}
      (orderly : Orderly registry) (free : registry.Free host (registry.allocate parent).1) :
      Orderly (registry.create host parent).2
  | allocate {registry : Registry} (orderly : Orderly registry) (parent : Option ThreadId) :
      Orderly (registry.allocate parent).2
  | bind {registry : Registry} {host : Host} {thread : ThreadId} (orderly : Orderly registry)
      (free : registry.Free host thread) : Orderly (registry.bind host thread)
  | terminate {registry after : Registry} {host : Host} {thread : ThreadId}
      (orderly : Orderly registry) (done : registry.terminate host = .ok (thread, after)) :
      Orderly after
  | forget {registry : Registry} (orderly : Orderly registry) (thread : ThreadId) :
      Orderly (registry.forget thread).2

/-- The host thread carries the thread, in whatever spelling. -/
def Carries (registry : Registry) (host : Host) (thread : ThreadId) : Prop :=
  ∃ carried, registry.threadOf? host = some carried ∧ carried.lineage = thread.lineage

theorem threadOf?_bind (registry : Registry) (host : Host) (thread : ThreadId) (other : Host) :
    (registry.bind host thread).threadOf? other =
      if other = host then some thread else registry.threadOf? other := by
  simp only [threadOf?, bind, Table.get?_insert, Nat.compare_eq_eq]

theorem hostOf?_bind (registry : Registry) (host : Host) (thread other : ThreadId) :
    (registry.bind host thread).hostOf? other =
      if other.lineage = thread.lineage then some host else registry.hostOf? other := by
  simp only [hostOf?, bind, Table.get?_insert, ThreadId.compare_eq_iff]

theorem hostOf?_congr (registry : Registry) {first second : ThreadId}
    (same : first.lineage = second.lineage) :
    registry.hostOf? first = registry.hostOf? second :=
  Table.get?_congr registry.hosts (ThreadId.compare_eq_iff.2 same)

theorem carries_bind {other : Host} {carried : ThreadId} :
    (registry.bind host thread).Carries other carried ↔
      if other = host then thread.lineage = carried.lineage
      else registry.Carries other carried := by
  unfold Carries
  rw [threadOf?_bind]
  by_cases here : other = host
  · simp [here]
  · simp [here]

/-- The registry without a pair, and without the children of the thread. -/
def without (registry : Registry) (host : Host) (thread : ThreadId) : Registry where
  threads := registry.threads.erase host
  hosts := registry.hosts.erase thread
  spawned := registry.spawned.erase thread

theorem threadOf?_without (registry : Registry) (host other : Host) (thread : ThreadId) :
    (registry.without host thread).threadOf? other =
      if other = host then none else registry.threadOf? other := by
  simp only [threadOf?, without, Table.get?_erase, Nat.compare_eq_eq]

private theorem hostOf?_without (registry : Registry) (host : Host) (thread other : ThreadId) :
    (registry.without host thread).hostOf? other =
      if other.lineage = thread.lineage then none else registry.hostOf? other := by
  simp only [hostOf?, without, Table.get?_erase, ThreadId.compare_eq_iff]

private theorem carries_without {other : Host} {carried : ThreadId} :
    (registry.without host thread).Carries other carried ↔
      other ≠ host ∧ registry.Carries other carried := by
  unfold Carries
  rw [threadOf?_without]
  by_cases here : other = host
  · simp [here]
  · simp [here]

private theorem terminate_eq (carries : registry.threadOf? host = some thread) :
    registry.terminate host = .ok (thread, registry.without host thread) := by
  rw [terminate, carries]
  rfl

private theorem terminate_of_free (free : registry.threadOf? host = none) :
    registry.terminate host = .error (untrackedHost host) := by
  rw [terminate, free]

theorem forget_eq (carried : registry.hostOf? thread = some host) :
    registry.forget thread = (some host, registry.without host thread) := by
  rw [forget, carried]
  rfl

private theorem forget_of_free (free : registry.hostOf? thread = none) :
    registry.forget thread =
      (none, { registry with spawned := registry.spawned.erase thread }) := by
  rw [forget, free]

/-- A thread that is forgotten is carried by no host thread. -/
theorem hostOf?_forget (registry : Registry) (thread other : ThreadId) :
    (registry.forget thread).2.hostOf? other =
      if other.lineage = thread.lineage then none else registry.hostOf? other := by
  cases carried : registry.hostOf? thread with
  | some host =>
      rw [forget_eq carried]
      exact registry.hostOf?_without host thread other
  | none =>
      rw [forget_of_free carried]
      split
      next same => exact (registry.hostOf?_congr same).trans carried
      next => rfl

/-- The host thread that carries a forgotten thread carries nothing. -/
theorem carries_forget {other : ThreadId} :
    (registry.forget thread).2.Carries host other ↔
      registry.hostOf? thread ≠ some host ∧ registry.Carries host other := by
  cases carried : registry.hostOf? thread with
  | some carrier =>
      rw [forget_eq carried, carries_without]
      simp only [ne_eq, Option.some_inj, eq_comm]
  | none =>
      rw [forget_of_free carried]
      exact (and_iff_right nofun).symm

private theorem allocate_frame (registry : Registry) (parent : Option ThreadId) :
    (registry.allocate parent).2.threads = registry.threads ∧
      (registry.allocate parent).2.hosts = registry.hosts := by
  cases parent with
  | none => exact ⟨rfl, rfl⟩
  | some parent => exact ⟨rfl, rfl⟩

/-- A host thread carries a thread exactly if the thread is carried by it. -/
structure Paired (registry : Registry) : Prop where
  inverse : ∀ host thread, registry.Carries host thread ↔ registry.hostOf? thread = some host
  sizes : registry.threads.size = registry.hosts.size

private theorem paired_empty : Paired empty := by
  refine ⟨fun host thread => ?_, rfl⟩
  constructor
  · rintro ⟨carried, found, -⟩
    cases found
  · intro found
    cases found

private theorem Paired.of_same (paired : registry.Paired)
    (threads : after.threads = registry.threads)
    (hosts : after.hosts = registry.hosts) : after.Paired := by
  constructor
  · intro host thread
    have pair := paired.inverse host thread
    unfold Carries threadOf? hostOf? at pair ⊢
    rwa [threads, hosts]
  · rw [threads, hosts]
    exact paired.sizes

private theorem Paired.bind (paired : registry.Paired) (free : registry.Free host thread) :
    (registry.bind host thread).Paired := by
  constructor
  · intro other carried
    have pair := paired.inverse other carried
    rw [carries_bind, hostOf?_bind]
    by_cases here : other = host
    · subst here
      rw [if_pos rfl]
      by_cases same : carried.lineage = thread.lineage
      · simp [same]
      · -- the host thread carried nothing before
        have unpaired : ¬ registry.Carries other carried := by
          rintro ⟨earlier, found, -⟩
          rw [free.carriesNothing] at found
          cases found
        rw [if_neg same, ← pair]
        simp [unpaired, Ne.symm same]
    · rw [if_neg here]
      by_cases same : carried.lineage = thread.lineage
      · -- the thread was carried by nothing before
        rw [registry.hostOf?_congr same, free.isUncarried] at pair
        rw [if_pos same, pair]
        simp [Ne.symm here]
      · rw [if_neg same]
        exact pair
  · have uncarried := free.isUncarried
    calc (registry.bind host thread).threads.size
        = registry.threads.size + 1 := Table.size_insert_new _ free.carriesNothing thread
      _ = registry.hosts.size + 1 := by rw [paired.sizes]
      _ = (registry.bind host thread).hosts.size := (Table.size_insert_new _ uncarried host).symm

private theorem Paired.without (paired : registry.Paired) (carries : registry.Carries host thread) :
    (registry.without host thread).Paired := by
  have carried := (paired.inverse host thread).1 carries
  constructor
  · intro other also
    have pair := paired.inverse other also
    rw [carries_without, hostOf?_without]
    by_cases same : also.lineage = thread.lineage
    · rw [registry.hostOf?_congr same, carried] at pair
      rw [if_pos same, pair]
      simp [eq_comm]
    · have elsewhere : registry.Carries other also → other ≠ host := by
        rintro ⟨first, found, firstSame⟩ rfl
        obtain ⟨second, alsoFound, secondSame⟩ := carries
        obtain rfl := Option.some.inj (found.symm.trans alsoFound)
        exact same (firstSame.symm.trans secondSame)
      rw [if_neg same, ← pair]
      exact and_iff_right_of_imp elsewhere
  · obtain ⟨stored, found, -⟩ := carries
    have fewerThreads : (registry.without host thread).threads.size + 1 = registry.threads.size :=
      registry.threads.size_erase found
    have fewerHosts : (registry.without host thread).hosts.size + 1 = registry.hosts.size :=
      registry.hosts.size_erase carried
    have sizes := paired.sizes
    omega

private theorem Orderly.paired (orderly : registry.Orderly) : registry.Paired := by
  induction orderly with
  | empty => exact paired_empty
  | @create registry host parent orderly free inductionHypothesis =>
      have frame := registry.allocate_frame parent
      have allocated : (registry.allocate parent).2.Paired :=
        inductionHypothesis.of_same frame.1 frame.2
      refine allocated.bind ⟨?_, ?_⟩
      · rw [threadOf?, frame.1]
        exact free.carriesNothing
      · rw [hostOf?, frame.2]
        exact free.isUncarried
  | @allocate registry orderly parent inductionHypothesis =>
      have frame := registry.allocate_frame parent
      exact inductionHypothesis.of_same frame.1 frame.2
  | bind orderly free inductionHypothesis => exact inductionHypothesis.bind free
  | @terminate registry after host thread orderly done inductionHypothesis =>
      cases found : registry.threadOf? host with
      | none =>
          rw [terminate_of_free found] at done
          cases done
      | some carried =>
          rw [terminate_eq found] at done
          cases done
          exact inductionHypothesis.without ⟨thread, found, rfl⟩
  | @forget registry orderly thread inductionHypothesis =>
      cases found : registry.hostOf? thread with
      | none =>
          rw [forget_of_free found]
          exact inductionHypothesis.of_same rfl rfl
      | some host =>
          rw [forget_eq found]
          exact inductionHypothesis.without ((inductionHypothesis.inverse host thread).2 found)

private theorem idFor_eq_ok_iff :
    registry.idFor host = .ok thread ↔ registry.threadOf? host = some thread := by
  unfold idFor
  cases registry.threadOf? host with
  | none => simp
  | some carried => simp

private theorem threadFor_eq_ok_iff :
    registry.threadFor thread = .ok host ↔ registry.hostOf? thread = some host := by
  unfold threadFor
  cases registry.hostOf? thread with
  | none => simp
  | some carrier => simp

/-- One pair is gone in both directions, and everything else is found as before. -/
structure Loses (before : Registry) (host : Host) (thread : ThreadId) (after : Registry) :
    Prop where
  ids : ∀ other, after.idFor other =
    if other = host then .error (untrackedHost other) else before.idFor other
  hosts : ∀ other, after.threadFor other =
    if other.same thread then .error (.untrackedThread other.name) else before.threadFor other

private theorem loses_without (registry : Registry) (host : Host) (thread : ThreadId) :
    registry.Loses host thread (registry.without host thread) := by
  constructor
  · intro other
    unfold idFor
    rw [threadOf?_without]
    by_cases here : other = host
    · simp [here]
    · simp [here]
  · intro other
    unfold threadFor
    rw [hostOf?_without]
    by_cases same : other.lineage = thread.lineage
    · simp [ThreadId.same_iff_lineage, same]
    · simp [ThreadId.same_iff_lineage, same]

/-- The registry is a set of pairs of a host thread and a thread, which it finds from both
sides and gives up as wholes. -/
structure TwoWay (registry : Registry) : Prop where
  inverse : ∀ host thread,
    (∃ carried, registry.idFor host = .ok carried ∧ carried.same thread = true) ↔
      registry.threadFor thread = .ok host
  counted : {pair : Host × ThreadId | registry.idFor pair.1 = .ok pair.2}.encard = registry.size
  terminated : ∀ host thread, registry.idFor host = .ok thread →
    ∃ after, registry.terminate host = .ok (thread, after) ∧ registry.Loses host thread after
  notTerminated : ∀ host fault, registry.idFor host = .error fault →
    registry.terminate host = .error fault
  forgotten : ∀ host thread, registry.threadFor thread = .ok host →
    (registry.forget thread).1 = some host ∧
      registry.Loses host thread (registry.forget thread).2
  notForgotten : ∀ thread fault, registry.threadFor thread = .error fault →
    (registry.forget thread).1 = none ∧
      (∀ host, (registry.forget thread).2.idFor host = registry.idFor host) ∧
      ∀ other, (registry.forget thread).2.threadFor other = registry.threadFor other

private theorem encard_pairs (registry : Registry) :
    {pair : Host × ThreadId | registry.idFor pair.1 = .ok pair.2}.encard =
      registry.threads.size := by
  have listed : {pair : Host × ThreadId | registry.idFor pair.1 = .ok pair.2} =
      ↑registry.threads.entries.toFinset := by
    ext pair
    rw [Set.mem_ofPred_eq, idFor_eq_ok_iff, Finset.mem_coe, List.mem_toFinset,
      Table.mem_entries_iff]
    rfl
  rw [listed, Set.encard_coe_eq_coe_finsetCard,
    List.toFinset_card_of_nodup registry.threads.nodup_entries]
  rfl

/-- As long as only free host threads and free threads are bound to each other, the registry is
a map in both directions. -/
theorem orderly_twoWay (orderly : registry.Orderly) : registry.TwoWay := by
  have paired := orderly.paired
  constructor
  case inverse =>
    intro host thread
    simp only [idFor_eq_ok_iff, threadFor_eq_ok_iff, ThreadId.same_iff_lineage]
    exact paired.inverse host thread
  case counted =>
    rw [encard_pairs, paired.sizes]
    rfl
  case terminated =>
    intro host thread found
    exact ⟨_, terminate_eq (idFor_eq_ok_iff.1 found), registry.loses_without host thread⟩
  case notTerminated =>
    intro host fault missing
    unfold idFor at missing
    cases found : registry.threadOf? host with
    | none =>
        rw [found] at missing
        cases missing
        exact terminate_of_free found
    | some carried =>
        rw [found] at missing
        cases missing
  case forgotten =>
    intro host thread found
    rw [forget_eq (threadFor_eq_ok_iff.1 found)]
    exact ⟨rfl, registry.loses_without host thread⟩
  case notForgotten =>
    intro thread fault missing
    unfold threadFor at missing
    cases found : registry.hostOf? thread with
    | none =>
        rw [forget_of_free found]
        exact ⟨rfl, fun _ => rfl, fun _ => rfl⟩
    | some host =>
        rw [found] at missing
        cases missing

/-- A host thread carries a second thread after the root that it carried first is gone, and
the other host thread is gone with the thread that it carried. -/
theorem twoWay_of_reused_host :
    ∃ registry : Registry, registry.Orderly ∧ registry.idFor 7 = .ok (.child .root 1) ∧
      registry.size = 1 ∧ registry.TwoWay := by
  have begun : Orderly (Registry.empty.create 7 none).2 :=
    .create .empty ⟨by decide +kernel, by decide +kernel⟩
  have started : Orderly ((Registry.empty.create 7 none).2.create 9 (some .root)).2 :=
    .create begun ⟨by decide +kernel, by decide +kernel⟩
  have forgotten := (started.allocate (some .root)).forget .root
  have terminated :=
    forgotten.terminate (@terminate_eq _ 9 (.child .root 0) (by decide +kernel))
  have reused : Orderly (Registry.bind _ 7 (.child .root 1)) :=
    terminated.bind ⟨by decide +kernel, by decide +kernel⟩
  exact ⟨_, reused, by decide +kernel, by decide +kernel, orderly_twoWay reused⟩

end ScheduleSearch.Registry
