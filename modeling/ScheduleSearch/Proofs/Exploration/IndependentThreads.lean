import ScheduleSearch.Proofs.Exploration.FreeChoices
import ScheduleSearch.Proofs.Exploration.Interleavings
import ScheduleSearch.Proofs.Thread.Names

/-!
# Threads that do not depend on each other

Some children of the root are live; each passes some places where another thread may take over,
and exits.  None of them ever waits, so whenever the next thread is chosen it can be any child
that is left, and the runs that can come are the interleavings of what the children still have to
do, each shown once.
-/

namespace ScheduleSearch

variable {n : Nat}

/-- The child of the root with a number. -/
def worker (party : Fin n) : ThreadId :=
  .child .root party.val

@[simp]
theorem lineage_worker_eq_iff {left right : Fin n} :
    (worker left).lineage = (worker right).lineage ↔ left = right := by
  simp [worker, ThreadId.child, ThreadId.lineage, Fin.ext_iff]

theorem name_worker_eq_iff {left right : Fin n} :
    (worker left).name = (worker right).name ↔ left = right := by
  rw [worker, worker, ThreadId.name_child_inj, and_iff_right rfl, Fin.ext_iff]

theorem name_worker_ne (party : Fin n) : (worker party).name ≠ ThreadId.rootName :=
  ThreadId.name_child_ne_root .root party.val

namespace RunStates

/-- Nobody is live but some of the children, in the order of their numbers. -/
def Shows (states : RunStates) (parties : List (Fin n)) (run : Fin n → RunState) : Prop :=
  states.table.entries = parties.map fun party => (worker party, run party)

variable {states : RunStates} {parties : List (Fin n)} {run : Fin n → RunState}

private theorem Shows.set (shows : states.Shows parties run) (party : Fin n) (state : RunState) :
    (states.set (worker party) state).Shows parties (Function.update run party state) := by
  unfold Shows RunStates.set Table.modify
  dsimp only
  rw [shows, List.map_map]
  apply List.map_congr_left
  intro other _
  by_cases here : other = party
  · simp [here]
  · simp [Ne.symm here, Function.update_of_ne here]

private theorem Shows.remove (shows : states.Shows parties run) (party : Fin n) :
    (states.remove (worker party)).Shows (parties.filter fun other => other ≠ party) run := by
  have apart : ∀ other : Fin n,
      (compare (worker party) (worker other) != .eq) = decide (other ≠ party) := by
    intro other
    rw [Bool.eq_iff_iff, bne_iff_ne, decide_eq_true_iff, Ne, ThreadId.compare_eq_iff,
      lineage_worker_eq_iff, eq_comm]
  unfold Shows RunStates.remove Table.erase
  dsimp only
  rw [shows, List.filter_map]
  simp only [Function.comp_def, apart]

private theorem Shows.threadsWhere (shows : states.Shows parties run) (test : RunState → Bool) :
    states.threadsWhere test = (parties.filter fun party => test (run party)).map worker := by
  unfold RunStates.threadsWhere
  rw [shows, List.filter_map, List.map_map]
  rfl

private theorem Shows.state? (shows : states.Shows parties run) {party : Fin n}
    (member : party ∈ parties) :
    states.state? (worker party) = some (run party) := by
  have listed : (worker party, run party) ∈ states.table.entries := by
    rw [shows]
    exact List.mem_map_of_mem member
  exact Table.get?_of_mem listed

private theorem Shows.running? (shows : states.Shows parties run) {party : Fin n}
    (member : party ∈ parties) (only : ∀ other, (run other).isRunning = true ↔ other = party) :
    states.running? = some (worker party) := by
  have listed : party ∈ parties.filter fun other => (run other).isRunning :=
    List.mem_filter.2 ⟨member, (only party).2 rfl⟩
  unfold RunStates.running?
  rw [shows.threadsWhere]
  cases shape : parties.filter fun other => (run other).isRunning with
  | nil =>
      rw [shape] at listed
      cases listed
  | cons first rest =>
      have found : first ∈ parties.filter fun other => (run other).isRunning := by
        rw [shape]
        exact List.mem_cons_self
      rw [(only first).1 (List.mem_filter.1 found).2]
      rfl

private theorem Shows.congr (shows : states.Shows parties run) {twin : Fin n → RunState}
    (same : ∀ party ∈ parties, run party = twin party) : states.Shows parties twin := by
  unfold Shows
  rw [shows]
  exact List.map_congr_left fun party member => by rw [same party member]

private theorem Shows.exists_of_state? (shows : states.Shows parties run) {thread : ThreadId}
    {state : RunState} (found : states.state? thread = some state) :
    ∃ party, run party = state := by
  obtain ⟨entry, member, -, rfl⟩ := Table.mem_of_get? found
  rw [shows] at member
  obtain ⟨party, -, rfl⟩ := List.mem_map.1 member
  exact ⟨party, rfl⟩

end RunStates

/-- The places that are passed, as events. -/
def passing (sites : List Site) : List Event :=
  sites.map fun site => .act (.yield site)

/-- What a child does that passes some places. -/
def course (sites : List Site) : List Event :=
  passing sites ++ [.exit]

private theorem course_cons (site : Site) (sites : List Site) :
    course (site :: sites) = .act (.yield site) :: course sites := rfl

private theorem course_injective : Function.Injective course := by
  intro left right same
  have passed : passing left = passing right := List.append_cancel_right same
  refine List.map_injective_iff.2 ?_ passed
  intro site other equal
  cases equal
  rfl

theorem course_ne_nil (sites : List Site) : course sites ≠ [] :=
  List.append_ne_nil_of_right_ne_nil _ (List.cons_ne_nil _ _)

/-- The children that did not reach their exits. -/
def busy (pending : Fin n → List Event) : List (Fin n) :=
  (List.finRange n).filter fun party => pending party ≠ []

private theorem mem_busy {pending : Fin n → List Event} {party : Fin n} :
    party ∈ busy pending ↔ pending party ≠ [] := by
  simp [busy]

private theorem busy_update {pending : Fin n → List Event} {party : Fin n} {rest : List Event}
    (before : pending party ≠ []) (after : rest ≠ []) :
    busy (Function.update pending party rest) = busy pending := by
  apply List.filter_congr
  intro other _
  by_cases here : other = party
  · simp [here, before, after]
  · rw [Function.update_of_ne here]

private theorem flatMap_busy {β : Type} (pending : Fin n → List Event) (view : Fin n → List β)
    (silent : ∀ party, pending party = [] → view party = []) :
    (List.finRange n).flatMap view = (busy pending).flatMap view := by
  unfold busy
  induction List.finRange n with
  | nil => rfl
  | cons party rest inductionHypothesis =>
      by_cases done : pending party = []
      · rw [List.filter_cons_of_neg (by simp [done]), List.flatMap_cons, silent party done,
          inductionHypothesis]
        rfl
      · rw [List.filter_cons_of_pos (by simp [done]), List.flatMap_cons, List.flatMap_cons,
          inductionHypothesis]

private theorem busy_update_nil (pending : Fin n → List Event) (party : Fin n) :
    busy (Function.update pending party []) = (busy pending).filter fun other => other ≠ party := by
  unfold busy
  rw [List.filter_filter]
  apply List.filter_congr
  intro other _
  by_cases here : other = party
  · simp [here]
  · simp [here]

/-- The next thread is to be chosen among the children that have something left to do. -/
structure Awaits (pending : Fin n → List Event) (program : EventProgram) (state : Scheduler Unit) :
    Prop where
  listed : ∀ party, pending party ≠ [] → ∃ sites, pending party = course sites ∧
    program.lists.get? (worker party).name = some (passing sites)
  live : state.threads.Shows (busy pending) fun _ => .runnable
  monitors : state.monitors = .empty
  joins : state.joins = .empty
  enough : state.decisions + remaining pending ≤ state.maxDecisions

namespace Awaits

variable {pending : Fin n → List Event} {program : EventProgram} {state : Scheduler Unit}

private theorem nobody (awaits : Awaits pending program state) (thread : ThreadId) :
    state.threads.state? thread ≠ some .running := by
  intro runs
  obtain ⟨party, impossible⟩ := awaits.live.exists_of_state? runs
  cases impossible

private theorem runnable (awaits : Awaits pending program state) :
    state.threads.runnable = (busy pending).map worker := by
  have all : (busy pending).filter (fun _ => RunState.runnable.isRunnable) = busy pending :=
    List.filter_eq_self.2 fun _ _ => rfl
  rw [RunStates.runnable, awaits.live.threadsWhere, all]

private theorem runnable_ne_nil (awaits : Awaits pending program state)
    (some : remaining pending ≠ 0) :
    state.threads.runnable ≠ [] := by
  intro nobody
  rw [awaits.runnable, List.map_eq_nil_iff] at nobody
  apply some
  rw [remaining_eq_zero_iff]
  intro party
  by_contra left
  have member := mem_busy.2 left
  rw [nobody] at member
  cases member

private theorem quiescent (awaits : Awaits pending program state) (none : remaining pending = 0) :
    state.threads.runnable = [] ∧ state.stalled = .ok .quiescent := by
  have done := remaining_eq_zero_iff.1 none
  have nobody : busy pending = [] := by simp [busy, done]
  have live := awaits.live
  rw [RunStates.Shows, nobody] at live
  have empty : state.threads.isEmpty = true := List.isEmpty_iff.2 live
  constructor
  · rw [awaits.runnable, nobody]
    rfl
  · exact if_pos empty

private theorem free (awaits : Awaits pending program state) (thread : ThreadId) :
    state.monitors.entering? thread = none := by
  rw [awaits.monitors]
  rfl

private theorem listed_of (awaits : Awaits pending program state) {party : Fin n}
    {sites : List Site} (own : pending party = course sites) :
    program.lists.get? (worker party).name = some (passing sites) ∧ party ∈ busy pending := by
  have left : pending party ≠ [] := by
    rw [own]
    exact course_ne_nil sites
  obtain ⟨others, same, found⟩ := awaits.listed party left
  rw [own] at same
  rw [course_injective same]
  exact ⟨found, mem_busy.2 left⟩

/-- A child that is let run and passes a place is back among those that may come next. -/
theorem yield (awaits : Awaits pending program state) {party : Fin n} {site : Site}
    {sites : List Site} (own : pending party = course (site :: sites)) {decisions : Nat}
    (bounded : decisions ≤ state.decisions + 1) :
    ∃ rest label ready, program.next (worker party) = (.act (.yield site), rest) ∧
      (state.turned decisions (worker party)).prepare (worker party) (.act (.yield site)) =
        .choosing label ready ∧
      Awaits (Function.update pending party (course sites)) rest ready := by
  obtain ⟨found, member⟩ := awaits.listed_of own
  have ran := awaits.live.set party .running
  have stood := ran.set party .runnable
  have runs := ran.state? member
  rw [Function.update_self] at runs
  rw [Function.update_idem, Function.update_eq_self_iff.2 rfl] at stood
  let placed : Scheduler Unit := { state.turned decisions (worker party) with
    places := state.places.insert (worker party) site }
  have ready : placed.stoodBack (worker party) =
      { placed with threads := placed.threads.setRunnable (worker party) } :=
    Scheduler.stoodBack_of_running runs
  refine ⟨⟨program.lists.insert (worker party).name (passing sites)⟩, _, _, ?_, rfl, ?_⟩
  · unfold EventProgram.next
    rw [found]
    rfl
  change Awaits _ _ (placed.stoodBack (worker party))
  rw [ready]
  constructor
  case listed =>
    intro other left
    simp only [Table.get?_insert, Std.LawfulEqCmp.compare_eq_iff_eq, name_worker_eq_iff]
    by_cases here : other = party
    · rw [here, Function.update_self, if_pos rfl]
      exact ⟨sites, rfl, rfl⟩
    · rw [Function.update_of_ne here] at left ⊢
      rw [if_neg here]
      exact awaits.listed other left
  case live =>
    rw [busy_update (mem_busy.1 member) (course_ne_nil sites)]
    exact stood
  case monitors => exact awaits.monitors
  case joins => exact awaits.joins
  case enough =>
    have fewer : remaining (Function.update pending party (course sites)) + 1 =
        remaining pending := remaining_update own
    have enough := awaits.enough
    change decisions + _ ≤ state.maxDecisions
    omega

/-- A child that is let run and exits is gone. -/
theorem exit (awaits : Awaits pending program state) {party : Fin n}
    (own : pending party = course []) {decisions : Nat}
    (bounded : decisions ≤ state.decisions + 1) :
    ∃ label ready, program.next (worker party) = (.exit, program) ∧
      (state.turned decisions (worker party)).prepare (worker party) .exit =
        .choosing label ready ∧
      Awaits (Function.update pending party []) program ready := by
  obtain ⟨found, member⟩ := awaits.listed_of own
  have gone := (awaits.live.set party .running).remove party
  have threads : ((state.turned decisions (worker party)).forget (worker party)).threads =
      (state.threads.set (worker party) .running).remove (worker party) := by
    simp only [Scheduler.forget, Scheduler.turned, awaits.joins]
    rfl
  refine ⟨_, _, ?_, rfl, ?_⟩
  · unfold EventProgram.next
    rw [found]
    rfl
  constructor
  case listed =>
    intro other left
    have apart : other ≠ party := by
      rintro rfl
      exact left (Function.update_self ..)
    rw [Function.update_of_ne apart] at left ⊢
    exact awaits.listed other left
  case live =>
    rw [threads, busy_update_nil]
    apply gone.congr
    intro other remains
    have apart : other ≠ party := of_decide_eq_true (List.mem_filter.1 remains).2
    rw [Function.update_of_ne apart]
  case monitors => exact awaits.monitors
  case joins =>
    change (⟨state.joins.table.erase (worker party)⟩ : Joins) = .empty
    rw [awaits.joins]
    rfl
  case enough =>
    have fewer := remaining_update own
    have enough := awaits.enough
    change decisions + _ ≤ state.maxDecisions
    omega

/-- Whatever a child has to do next, afterwards the next thread is to be chosen again. -/
theorem advance (awaits : Awaits pending program state) {party : Fin n} {first : Event}
    {later : List Event} (own : pending party = first :: later) {decisions : Nat}
    (bounded : decisions ≤ state.decisions + 1) :
    ∃ rest label ready, program.next (worker party) = (first, rest) ∧
      (state.turned decisions (worker party)).prepare (worker party) first =
        .choosing label ready ∧
      Awaits (Function.update pending party later) rest ready := by
  have left : pending party ≠ [] := by
    rw [own]
    exact List.cons_ne_nil _ _
  obtain ⟨sites, same, -⟩ := awaits.listed party left
  cases sites with
  | nil =>
      obtain ⟨rfl, rfl⟩ := List.cons.inj (own.symm.trans same)
      exact ⟨program, awaits.exit same bounded⟩
  | cons site sites =>
      obtain ⟨rfl, rfl⟩ := List.cons.inj (own.symm.trans (same.trans (course_cons site sites)))
      exact awaits.yield same bounded

private theorem running?_turned (awaits : Awaits pending program state) {party : Fin n}
    (member : party ∈ busy pending) (decisions : Nat) :
    (state.turned decisions (worker party)).running? = some (worker party) ∧
      (state.turned decisions (worker party)).isLive (worker party) = true := by
  have ran := awaits.live.set party .running
  refine ⟨ran.running? member ?_, Scheduler.isLive_iff.2 ⟨_, ran.state? member⟩⟩
  intro other
  by_cases here : other = party
  · simp [here, RunState.isRunning]
  · simp [here, RunState.isRunning]

end Awaits

/-! ## Executions -/

namespace EventProgram

/-- The runs that a tree shows, from left to right. -/
def shown (tree : DecisionProgram ((History × Ending) × Scheduler Unit)) :
    List (History × Ending) :=
  tree.outcomes.map Prod.fst

/-- What can come of a program after an event that came to this. -/
def continued (steps : Nat) (program : EventProgram) (result : Outcome Reply × Scheduler Unit) :
    DecisionProgram ((History × Ending) × Scheduler Unit) :=
  match Ending.of? result.1 with
  | some ending => .ended (([], ending), result.2)
  | none => treeWithin steps program result.2

/-- The run with one more event at the start. -/
def precede (actor : ThreadId) (event : Event) (run : History × Ending) : History × Ending :=
  ((actor, event) :: run.1, run.2)

theorem shown_treeWithin {program rest : EventProgram} {state : Scheduler Unit} {actor : ThreadId}
    {event : Event} (runs : state.running? = some actor) (next : program.next actor = (event, rest))
    (steps : Nat) :
    shown (treeWithin (steps + 1) program state) =
      ((state.stepTree actor event).outcomes.flatMap fun result =>
        shown (continued steps rest result)).map (precede actor event) := by
  unfold treeWithin
  rw [runs]
  dsimp only
  rw [next, shown, DecisionProgram.outcomes_bind, List.map_flatMap, List.map_flatMap]
  apply List.flatMap_congr
  intro result _
  unfold continued shown
  cases Ending.of? result.1 with
  | some ending => rfl
  | none =>
      dsimp only
      rw [DecisionProgram.outcomes_map, List.map_map, List.map_map]
      rfl

/-- An interleaving as a run. -/
def told (order : List (Fin n × Event)) : History × Ending :=
  (order.map fun entry => (worker entry.1, entry.2), .quiescent)

private theorem outcomes_choosing (label : String) (state : Scheduler Unit) :
    (Prepared.choosing label state).tree.outcomes =
      (Scheduler.pickTreeWithin state.threads.runnable.length state label).outcomes.map
        fun picked => (picked.1.map .schedule, picked.2) :=
  DecisionProgram.outcomes_map _ _

/-- Whatever interleaving of the rest may come is shown, and nothing else. -/
theorem shown_of_awaits (total : Nat) :
    ∀ {pending : Fin n → List Event} {program : EventProgram} {state : Scheduler Unit} (steps : Nat),
      Awaits pending program state → remaining pending = total → total ≤ steps → ∀ label,
        ((Prepared.choosing label state).tree.outcomes.flatMap fun result =>
          shown (continued steps program result)) = (interleavings total pending).map told := by
  induction total with
  | zero =>
      intro pending program state steps awaits none _ label
      obtain ⟨nobody, quiescent⟩ := awaits.quiescent none
      rw [outcomes_choosing, nobody]
      change ([(state.stalled.map Reply.schedule, state)] : List (Outcome Reply × Scheduler Unit)).flatMap
        _ = _
      rw [quiescent]
      rfl
  | succ total inductionHypothesis =>
      intro pending program state steps awaits some enough label
      obtain ⟨steps, rfl⟩ := Nat.exists_eq_add_of_le' (Nat.le_of_add_left_le enough)
      have limit := awaits.enough
      have someone := awaits.runnable_ne_nil (by omega)
      obtain ⟨decisions, bounded, picked⟩ :=
        Scheduler.outcomes_pick awaits.nobody awaits.free (by omega) someone label
      have led : ∀ party ∈ busy pending,
          shown (treeWithin (steps + 1) program (state.turned decisions (worker party))) =
            (ledBy party (interleavings total) pending).map told := by
        intro party member
        obtain ⟨first, later, own⟩ := List.exists_cons_of_ne_nil (mem_busy.1 member)
        obtain ⟨rest, next, ready, nextEvent, prepared, afterwards⟩ := awaits.advance own bounded
        obtain ⟨runs, live⟩ := awaits.running?_turned member decisions
        have fewer := remaining_update own
        have shown := inductionHypothesis steps afterwards (by omega) (by omega) next
        rw [shown_treeWithin runs nextEvent, Scheduler.stepTree, if_pos live, prepared, shown,
          ledBy_of_pending own, List.map_map, List.map_map]
        rfl
      calc ((Prepared.choosing label state).tree.outcomes.flatMap fun result =>
            shown (continued (steps + 1) program result))
          = (busy pending).flatMap fun party =>
              shown (treeWithin (steps + 1) program (state.turned decisions (worker party))) := by
            rw [outcomes_choosing, picked, awaits.runnable]
            simp only [List.map_map, List.flatMap_map]
            rfl
        _ = (busy pending).flatMap fun party =>
              (ledBy party (interleavings total) pending).map told :=
            List.flatMap_congr led
        _ = (List.finRange n).flatMap fun party =>
              (ledBy party (interleavings total) pending).map told := by
            refine (flatMap_busy pending _ fun party done => ?_).symm
            rw [ledBy_of_done done]
            rfl
        _ = (interleavings (total + 1) pending).map told := by
            rw [interleavings, List.map_flatMap]

end EventProgram

end ScheduleSearch
