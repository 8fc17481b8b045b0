import ScheduleSearch.Proofs.State.Lookup
import ScheduleSearch.Thread.RunState

/-!
# The view of the run states

What each operation on run states does to the state of every single thread, and how the lists
of running and runnable threads are read off these states.
-/

namespace ScheduleSearch

/-- The state of a thread that is woken if it waits. -/
def RunState.woken (state : RunState) : RunState :=
  if state.isBlocked then .runnable else state

private theorem RunState.woken_woken (state : RunState) : state.woken.woken = state.woken := by
  cases state <;> rfl

namespace RunStates

variable {states : RunStates}

theorem state?_congr (states : RunStates) {left right : ThreadId}
    (same : left.lineage = right.lineage) : states.state? left = states.state? right :=
  Table.get?_congr states.table (ThreadId.compare_eq_iff.2 same)

theorem set_congr (states : RunStates) {left right : ThreadId}
    (same : left.lineage = right.lineage) (state : RunState) :
    states.set left state = states.set right state :=
  congrArg mk (Table.modify_congr states.table (ThreadId.compare_eq_iff.2 same) fun _ => state)

theorem setRunning_congr (states : RunStates) {left right : ThreadId}
    (same : left.lineage = right.lineage) : states.setRunning left = states.setRunning right := by
  have alike : ∀ current : ThreadId, current.same left = current.same right := by
    intro current
    rw [Bool.eq_iff_iff, ThreadId.same_iff_lineage, ThreadId.same_iff_lineage, same]
  simp only [setRunning, alike, set_congr states same]

theorem state?_set (states : RunStates) (thread other : ThreadId) (state : RunState) :
    (states.set thread state).state? other =
      if other.lineage = thread.lineage then (states.state? other).map fun _ => state
      else states.state? other := by
  simp only [state?, set, Table.get?_modify, ThreadId.compare_eq_iff]

theorem state?_unblock (states : RunStates) (thread other : ThreadId) :
    (states.unblock thread).state? other =
      if other.lineage = thread.lineage then (states.state? other).map RunState.woken
      else states.state? other := by
  simp only [state?, unblock, Table.get?_modify, ThreadId.compare_eq_iff]
  rfl

theorem state?_set_of_live {thread : ThreadId} {before : RunState}
    (live : states.state? thread = some before) (state : RunState) (other : ThreadId) :
    (states.set thread state).state? other =
      if other.lineage = thread.lineage then some state else states.state? other := by
  rw [state?_set]
  by_cases here : other.lineage = thread.lineage
  · rw [if_pos here, if_pos here, state?_congr states here, live]
    rfl
  · rw [if_neg here, if_neg here]

theorem state?_unblock_of_blocked {thread : ThreadId} {reason : Option BlockReason}
    (blocked : states.state? thread = some (.blocked reason)) (other : ThreadId) :
    (states.unblock thread).state? other =
      if other.lineage = thread.lineage then some .runnable else states.state? other := by
  rw [state?_unblock]
  by_cases here : other.lineage = thread.lineage
  · rw [if_pos here, if_pos here, state?_congr states here, blocked]
    rfl
  · rw [if_neg here, if_neg here]

theorem state?_foldl_unblock (threads : List ThreadId) (other : ThreadId) :
    ∀ states : RunStates, (threads.foldl unblock states).state? other =
      if ∃ thread ∈ threads, other.lineage = thread.lineage then
        (states.state? other).map RunState.woken
      else states.state? other := by
  induction threads with
  | nil =>
      intro states
      simp
  | cons thread rest inductionHypothesis =>
      intro states
      rw [List.foldl_cons, inductionHypothesis, state?_unblock]
      by_cases here : other.lineage = thread.lineage
      · have twice : ((states.state? other).map RunState.woken).map RunState.woken =
            (states.state? other).map RunState.woken := by
          cases states.state? other with
          | none => rfl
          | some state => simp only [Option.map_some, RunState.woken_woken]
        simp [here, twice]
      · simp [here]

theorem state?_remove (states : RunStates) (thread other : ThreadId) :
    (states.remove thread).state? other =
      if other.lineage = thread.lineage then none else states.state? other := by
  simp only [state?, remove, Table.get?_erase, ThreadId.compare_eq_iff]

theorem state?_insert (states : RunStates) (thread other : ThreadId) (state : RunState) :
    (⟨states.table.insert thread state⟩ : RunStates).state? other =
      if other.lineage = thread.lineage then some state else states.state? other := by
  simp only [state?, Table.get?_insert, ThreadId.compare_eq_iff]

theorem contains_iff {thread : ThreadId} :
    states.contains thread = true ↔ ∃ state, states.state? thread = some state :=
  Table.contains_iff

theorem isEmpty_iff : states.isEmpty = true ↔ ∀ thread, states.state? thread = none :=
  Table.isEmpty_iff

theorem isRunning_iff {thread : ThreadId} :
    states.isRunning thread = true ↔ states.state? thread = some .running := by
  unfold isRunning
  cases states.state? thread with
  | none => simp
  | some state => cases state <;> simp [RunState.isRunning]

theorem isBlocked_iff {thread : ThreadId} :
    states.isBlocked thread = true ↔ ∃ reason, states.state? thread = some (.blocked reason) := by
  unfold isBlocked
  cases states.state? thread with
  | none => simp
  | some state => cases state <;> simp [RunState.isBlocked]

theorem reason?_eq_some_iff {thread : ThreadId} {reason : BlockReason} :
    states.reason? thread = some reason ↔
      states.state? thread = some (.blocked (some reason)) := by
  unfold reason?
  cases states.state? thread with
  | none => simp
  | some state => cases state <;> simp [RunState.reason?]

theorem reason?_ne {thread : ThreadId} {run : RunState} {reason : BlockReason}
    (found : states.state? thread = some run) (other : run ≠ .blocked (some reason)) :
    states.reason? thread ≠ some reason := by
  intro waits
  rw [reason?_eq_some_iff, found] at waits
  exact other (Option.some.inj waits)

theorem mem_threadsWhere {test : RunState → Bool} {thread : ThreadId}
    (member : thread ∈ states.threadsWhere test) :
    ∃ state, states.state? thread = some state ∧ test state = true := by
  obtain ⟨entry, selected, rfl⟩ := List.mem_map.1 member
  obtain ⟨inside, passed⟩ := List.mem_filter.1 selected
  exact ⟨entry.2, Table.get?_of_mem inside, passed⟩

theorem exists_mem_threadsWhere {test : RunState → Bool} {thread : ThreadId} {state : RunState}
    (found : states.state? thread = some state) (passed : test state = true) :
    ∃ listed ∈ states.threadsWhere test, thread.lineage = listed.lineage := by
  obtain ⟨entry, inside, same, rfl⟩ := Table.mem_of_get? found
  refine ⟨entry.1, List.mem_map_of_mem (List.mem_filter.2 ⟨inside, passed⟩), ?_⟩
  exact ThreadId.compare_eq_iff.1 same

theorem threadsWhere_ascending (states : RunStates) (test : RunState → Bool) :
    (states.threadsWhere test).Pairwise fun earlier later => compare earlier later = .lt := by
  rw [threadsWhere, List.pairwise_map]
  exact states.table.ascending.filter _

/-- No thread is listed twice. -/
theorem threadsWhere_distinct (states : RunStates) (test : RunState → Bool) :
    (states.threadsWhere test).Pairwise fun earlier later => earlier.same later = false := by
  apply (states.threadsWhere_ascending test).imp
  intro earlier later below
  rw [← Bool.not_eq_true, ThreadId.same_iff_compare, below]
  exact fun impossible => Ordering.noConfusion impossible

theorem mem_runnable {thread : ThreadId} (member : thread ∈ states.runnable) :
    states.state? thread = some .runnable := by
  obtain ⟨state, found, passed⟩ := mem_threadsWhere member
  cases state with
  | runnable => exact found
  | running => cases passed
  | blocked reason => cases passed

theorem state?_of_running? {thread : ThreadId} (found : states.running? = some thread) :
    states.state? thread = some .running := by
  obtain ⟨state, known, passed⟩ := mem_threadsWhere (List.mem_of_head? found)
  cases state with
  | running => exact known
  | runnable => cases passed
  | blocked reason => cases passed

theorem running?_eq_none_iff :
    states.running? = none ↔ ∀ thread, states.state? thread ≠ some .running := by
  constructor
  · intro none thread found
    have passed : RunState.running.isRunning = true := rfl
    obtain ⟨listed, member, -⟩ := exists_mem_threadsWhere found passed
    rw [List.head?_eq_none_iff.1 none] at member
    cases member
  · intro nobody
    cases found : states.running? with
    | none => rfl
    | some thread => exact absurd (state?_of_running? found) (nobody thread)

/-- Setting a thread running succeeds while nobody is. -/
theorem setRunning_of_none (nobody : ∀ thread, states.state? thread ≠ some .running)
    (thread : ThreadId) : states.setRunning thread = .ok (states.set thread .running) := by
  simp [setRunning, running?_eq_none_iff.2 nobody]

end RunStates

end ScheduleSearch
