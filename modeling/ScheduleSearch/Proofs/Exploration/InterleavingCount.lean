import ScheduleSearch.Proofs.Exploration.Completeness
import ScheduleSearch.Proofs.Exploration.IndependentThreads
import ScheduleSearch.Proofs.State.Sizes

/-!
# The number of executions of independent threads

The root announces some children and exits; each child passes some places where another thread
may take over, and exits.  A search tries every interleaving of what the children do, each once,
so the number of its runs is a multinomial coefficient.
-/

namespace ScheduleSearch

open scoped Nat

variable {n : Nat}

namespace EventProgram

private theorem get?_addLists_of_not_mem {name : String} (lists : List (String × List Event)) :
    ∀ table : Table String (List Event), name ∉ lists.map Prod.fst →
      (lists.foldl (fun table (name, events) => table.insert name events) table).get? name =
        table.get? name := by
  induction lists with
  | nil => exact fun _ _ => rfl
  | cons head rest inductionHypothesis =>
      intro table absent
      obtain ⟨here, later⟩ := not_or.1 (mt List.mem_cons.2 absent)
      rw [List.foldl_cons, inductionHypothesis _ later, Table.get?_insert,
        if_neg fun equal => here (Std.LawfulEqCmp.eq_of_compare equal)]

private theorem get?_ofLists {lists : List (String × List Event)}
    (distinct : (lists.map Prod.fst).Nodup) {entry : String × List Event} (member : entry ∈ lists) :
    (ofLists lists).lists.get? entry.1 = some entry.2 := by
  unfold ofLists
  dsimp only
  generalize (Table.empty : Table String (List Event)) = table
  induction lists generalizing table with
  | nil => cases member
  | cons head rest inductionHypothesis =>
      obtain ⟨fresh, restDistinct⟩ := List.nodup_cons.1 distinct
      rw [List.foldl_cons]
      rcases List.mem_cons.1 member with rfl | later
      · rw [get?_addLists_of_not_mem rest _ fresh, Table.get?_insert,
          if_pos Std.ReflCmp.compare_self]
      · exact inductionHypothesis restDistinct later _

private theorem size_ofLists {lists : List (String × List Event)}
    (distinct : (lists.map Prod.fst).Nodup) :
    (ofLists lists).size = (lists.map fun entry => entry.2.length).sum := by
  have grown : ∀ table : Table String (List Event),
      (∀ name ∈ lists.map Prod.fst, table.get? name = none) →
        ((lists.foldl (fun table (name, events) => table.insert name events) table).values.map
            List.length).sum =
          (table.values.map List.length).sum + (lists.map fun entry => entry.2.length).sum := by
    induction lists with
    | nil => exact fun _ _ => rfl
    | cons head rest inductionHypothesis =>
        intro table absent
        obtain ⟨fresh, restDistinct⟩ := List.nodup_cons.1 distinct
        have still : ∀ name ∈ rest.map Prod.fst,
            (table.insert head.1 head.2).get? name = none := by
          intro name member
          have apart : ¬ compare name head.1 = .eq := fun equal => by
            rw [Std.LawfulEqCmp.eq_of_compare equal] at member
            exact fresh member
          rw [Table.get?_insert, if_neg apart]
          exact absent name (List.mem_cons_of_mem _ member)
        have here := table.sum_values_insert_new (absent head.1 List.mem_cons_self) head.2
          List.length
        rw [List.foldl_cons, inductionHypothesis restDistinct _ still, here, List.map_cons,
          List.sum_cons, Nat.add_assoc]
  have all := grown Table.empty fun _ _ => rfl
  rw [size, List.length_flatten]
  exact all.trans (Nat.zero_add _)

/-- For the root the announcement of its children, and for each child the places it passes. -/
def independentLists (sites : Fin n → List Site) : List (String × List Event) :=
  (ThreadId.rootName, List.replicate n .announce) ::
    (List.finRange n).map fun party => ((worker party).name, passing (sites party))

/-- The program whose root announces some children and exits, and whose children pass some places
and exit. -/
def independent (sites : Fin n → List Site) : EventProgram :=
  .ofLists (independentLists sites)

private theorem independentLists_distinct (sites : Fin n → List Site) :
    ((independentLists sites).map Prod.fst).Nodup := by
  rw [independentLists, List.map_cons, List.map_map, List.nodup_cons]
  constructor
  · intro member
    obtain ⟨party, -, same⟩ := List.mem_map.1 member
    exact name_worker_ne party same
  · exact (List.nodup_finRange n).map fun left right same => name_worker_eq_iff.1 same

private theorem steps_independent (sites : Fin n → List Site) :
    n + 1 + remaining (fun party => course (sites party)) ≤ (independent sites).steps := by
  have size : (independent sites).size = n + ∑ party, (sites party).length := by
    rw [independent, size_ofLists (independentLists_distinct sites), independentLists,
      List.map_cons, List.sum_cons, List.map_map, Fin.sum_univ_def]
    simp [passing, Function.comp_def]
  have left : remaining (fun party => course (sites party)) =
      (∑ party, (sites party).length) + n := by
    simp [remaining, course, passing, Finset.sum_add_distrib]
  rw [steps, size, left]
  omega

end EventProgram

/-! ## The root announces its children -/

private theorem compare_child (left right : Nat) :
    compare (ThreadId.root.child left) (ThreadId.root.child right) = compare left right := by
  rw [ThreadId.compare_eq_lineage]
  change compare [0, left] [0, right] = _
  rw [List.compare_cons_cons, List.compare_cons_cons, Nat.compare_eq_eq.2 rfl]
  exact Ordering.then_eq

private theorem compare_child_root (number : Nat) :
    compare (ThreadId.root.child number) .root = .gt := by
  rw [ThreadId.compare_eq_lineage]
  rfl

/-- The root runs; it has announced some children and has others still to announce. -/
structure Opens (sites : Fin n → List Site) (announced left : Nat) (program : EventProgram)
    (state : Scheduler Unit) : Prop where
  counted : announced + left = n
  announcing : program.lists.get? ThreadId.rootName = some (List.replicate left .announce)
  listed : ∀ party, program.lists.get? (worker party).name = some (passing (sites party))
  live : state.threads.table.entries = (.root, .running) ::
    (List.range announced).map fun number => (ThreadId.root.child number, .runnable)
  numbered : state.nextNumber .root = announced
  monitors : state.monitors = .empty
  joins : state.joins = .empty
  enough : state.decisions + remaining (fun party => course (sites party)) ≤ state.maxDecisions

namespace Opens

variable {sites : Fin n → List Site} {announced left : Nat} {program : EventProgram}
  {state : Scheduler Unit}

private theorem runs (opens : Opens sites announced left program state) :
    state.running? = some .root ∧ state.isLive .root = true := by
  have listed : (ThreadId.root, RunState.running) ∈ state.threads.table.entries := by
    rw [opens.live]
    exact List.mem_cons_self
  constructor
  · unfold Scheduler.running? RunStates.running? RunStates.threadsWhere
    rw [opens.live]
    rfl
  · exact Scheduler.isLive_iff.2 ⟨_, Table.get?_of_mem listed⟩

/-- A child that is announced is the last one in the order of threads. -/
theorem announce (opens : Opens sites announced (left + 1) program state) :
    ∃ rest, program.next .root = (.announce, rest) ∧
      Opens sites (announced + 1) left rest (state.announce .root).2 := by
  have next : program.next .root = (.announce,
      ⟨program.lists.insert ThreadId.rootName (List.replicate left .announce)⟩) := by
    have found : program.lists.get? ThreadId.root.name =
        some (.announce :: List.replicate left .announce) := opens.announcing
    unfold EventProgram.next
    rw [found]
    rfl
  refine ⟨_, next, ?_⟩
  constructor
  case counted =>
    have counted := opens.counted
    omega
  case announcing =>
    rw [Table.get?_insert, if_pos Std.ReflCmp.compare_self]
  case listed =>
    intro party
    have apart : ¬ compare (worker party).name ThreadId.rootName = .eq := fun equal =>
      name_worker_ne party (Std.LawfulEqCmp.eq_of_compare equal)
    rw [Table.get?_insert, if_neg apart]
    exact opens.listed party
  case live =>
    have largest : ∀ entry ∈ state.threads.table.entries,
        compare (ThreadId.root.child announced) entry.1 = .gt := by
      intro entry member
      rw [opens.live] at member
      rcases List.mem_cons.1 member with rfl | child
      · exact compare_child_root announced
      · obtain ⟨number, below, rfl⟩ := List.mem_map.1 child
        rw [compare_child]
        exact Nat.compare_eq_gt.2 (List.mem_range.1 below)
    have placed := Table.place_of_largest RunState.runnable largest
    rw [Scheduler.announce_eq]
    have numbered : (state.registry.spawned.get? .root).getD 0 = announced := opens.numbered
    rw [numbered]
    change Table.place _ _ state.threads.table.entries = _
    rw [placed, opens.live, List.range_succ, List.map_append, List.cons_append]
    rfl
  case numbered =>
    rw [Scheduler.nextNumber_announce, if_pos rfl, opens.numbered]
  case monitors => exact opens.monitors
  case joins => exact opens.joins
  case enough => exact opens.enough

/-- When the root exits, every child has all its events before it. -/
theorem exit (opens : Opens sites announced 0 program state) :
    program.next .root = (.exit, program) ∧
      Awaits (fun party => course (sites party)) program (state.forget .root) := by
  have all : announced = n := opens.counted
  have threads : (state.forget .root).threads = state.threads.remove .root := by
    simp only [Scheduler.forget, opens.joins]
    rfl
  constructor
  · have found : program.lists.get? ThreadId.root.name = some [] := opens.announcing
    unfold EventProgram.next
    rw [found]
  constructor
  case listed => exact fun party _ => ⟨sites party, rfl, opens.listed party⟩
  case live =>
    have everyone : busy (fun party : Fin n => course (sites party)) = List.finRange n :=
      List.filter_eq_self.2 fun party _ => decide_eq_true (course_ne_nil _)
    have kept : (List.range n).filter ((fun entry : ThreadId × RunState =>
        compare ThreadId.root entry.1 != .eq) ∘ fun number =>
          (ThreadId.root.child number, .runnable)) = List.range n := by
      apply List.filter_eq_self.2
      intro number _
      simp [Std.OrientedCmp.lt_of_gt (compare_child_root number)]
    rw [threads, everyone]
    unfold RunStates.Shows RunStates.remove Table.erase
    dsimp only
    rw [opens.live, all, List.filter_cons_of_neg (by simp), List.filter_map, kept,
      ← List.map_coe_finRange_eq_range, List.map_map]
    rfl
  case monitors => exact opens.monitors
  case joins =>
    change (⟨state.joins.table.erase .root⟩ : Joins) = .empty
    rw [opens.joins]
    rfl
  case enough => exact opens.enough

end Opens

namespace EventProgram

variable {sites : Fin n → List Site}

/-- What the root does: a number of announcements and its exit. -/
def opening (children : Nat) : History :=
  List.replicate children (.root, .announce) ++ [(.root, .exit)]

/-- The run that opens with some events and goes on as told. -/
def opened (children : Nat) (run : History × Ending) : History × Ending :=
  (opening children ++ run.1, run.2)

/-- After the announcements that are left come the interleavings of what the children do. -/
theorem shown_of_opens (left : Nat) :
    ∀ {announced : Nat} {program : EventProgram} {state : Scheduler Unit} {steps : Nat},
      Opens sites announced left program state →
        left + 1 + remaining (fun party => course (sites party)) ≤ steps →
          shown (treeWithin steps program state) =
            (interleavings (remaining fun party => course (sites party))
              fun party => course (sites party)).map fun order => opened left (told order) := by
  induction left with
  | zero =>
      intro announced program state steps opens enough
      obtain ⟨steps, rfl⟩ := Nat.exists_eq_add_of_le' (show 1 ≤ steps by omega)
      obtain ⟨runs, live⟩ := opens.runs
      obtain ⟨next, awaits⟩ := opens.exit
      have prepared : state.prepare .root .exit =
          .choosing (Scheduler.exitLabel .root) (state.forget .root) := rfl
      have shown := shown_of_awaits _ steps awaits rfl (by omega) (Scheduler.exitLabel .root)
      rw [shown_treeWithin runs next, Scheduler.stepTree, if_pos live, prepared, shown, List.map_map]
      rfl
  | succ left inductionHypothesis =>
      intro announced program state steps opens enough
      obtain ⟨steps, rfl⟩ := Nat.exists_eq_add_of_le' (show 1 ≤ steps by omega)
      obtain ⟨runs, live⟩ := opens.runs
      obtain ⟨rest, next, opensAgain⟩ := opens.announce
      have stepped : (state.stepTree .root .announce).outcomes.flatMap
          (fun result => shown (continued steps rest result)) =
            shown (treeWithin steps rest (state.announce .root).2) := by
        rw [Scheduler.stepTree, if_pos live]
        exact List.append_nil _
      rw [shown_treeWithin runs next, stepped, inductionHypothesis opensAgain (by omega),
        List.map_map]
      rfl

/-- The root of a fresh execution has all its children still to announce. -/
theorem opens_begun (sites : Fin n → List Site) {maxDecisions : Nat}
    (enough : remaining (fun party => course (sites party)) ≤ maxDecisions) :
    Opens sites 0 n (independent sites) ((Scheduler.fresh () maxDecisions).begin rootHost).2 := by
  have found : ∀ entry ∈ independentLists sites,
      (independent sites).lists.get? entry.1 = some entry.2 := fun _ member =>
    get?_ofLists (independentLists_distinct sites) member
  constructor
  case counted => exact Nat.zero_add n
  case announcing =>
    exact found (ThreadId.rootName, List.replicate n .announce) List.mem_cons_self
  case listed =>
    intro party
    exact found ((worker party).name, passing (sites party))
      (List.mem_cons_of_mem _ (List.mem_map_of_mem (List.mem_finRange party)))
  case live => rfl
  case numbered => rfl
  case monitors => rfl
  case joins => rfl
  case enough =>
    change 0 + remaining (fun party => course (sites party)) ≤ maxDecisions
    omega

/-- What can come of the program is an opening followed by an interleaving. -/
theorem outcomes_independent (sites : Fin n → List Site) {maxDecisions : Nat}
    (enough : remaining (fun party => course (sites party)) ≤ maxDecisions) :
    ((independent sites).tree maxDecisions).outcomes =
      (interleavings (remaining fun party => course (sites party))
        fun party => course (sites party)).map fun order => opened n (told order) := by
  rw [tree, DecisionProgram.outcomes_map]
  exact shown_of_opens n (opens_begun sites enough) (steps_independent sites)

private theorem length_course (sites : List Site) : (course sites).length = sites.length + 1 := by
  simp [course, passing]

private theorem entry_injective :
    Function.Injective fun entry : Fin n × Event => (worker entry.1, entry.2) := by
  intro left right same
  obtain ⟨workers, events⟩ := Prod.mk.inj same
  exact Prod.ext (lineage_worker_eq_iff.1 (congrArg ThreadId.lineage workers)) events

/-- A search of independent threads makes one run for each interleaving of what they do. -/
theorem explore_interleavings (sites : Fin n → List Site) (maxDecisions : Nat)
    (enough : ∑ party, ((sites party).length + 1) ≤ maxDecisions) :
    ∃ runs : List ExploredRun,
      runs.length =
          (∑ party, ((sites party).length + 1))! / ∏ party, ((sites party).length + 1)! ∧
        (∀ run ∈ runs, run.ending = .quiescent) ∧
        (runs.map ExploredRun.history).Nodup ∧
        (∀ history, history ∈ runs.map ExploredRun.history ↔
          ∃ order, Interleaves (fun party => course (sites party)) order ∧
            history = opening n ++ order.map fun entry => (worker entry.1, entry.2)) ∧
        ∀ budget,
          let search := (independent sites).explore maxDecisions budget DepthFirst.start none
          search.runs = runs.take budget ∧
            (Explorer.isComplete search.explorer = true ↔ runs.length ≤ budget) ∧
            (0 < budget → search.lastFinish = some (.ok ())) := by
  let orders := interleavings (remaining fun party => course (sites party))
    fun party => course (sites party)
  have all : remaining (fun party => course (sites party)) =
      ∑ party, ((sites party).length + 1) := by
    simp only [remaining, length_course]
  have outcomes : ((independent sites).tree maxDecisions).outcomes =
      orders.map fun order => opened n (told order) :=
    outcomes_independent sites (all.trans_le enough)
  let runs := ((independent sites).tree maxDecisions).leaves.map explored
  have shown : runs.map (fun run => (run.history, run.ending)) =
      orders.map fun order => opened n (told order) := by
    rw [← outcomes, List.map_map]
    rfl
  have histories : runs.map ExploredRun.history =
      orders.map fun order => opening n ++ order.map fun entry => (worker entry.1, entry.2) := by
    have firsts := congrArg (List.map Prod.fst) shown
    simp only [List.map_map] at firsts ⊢
    exact firsts
  refine ⟨runs, ?_, ?_, ?_, ?_, (independent sites).explore_leaves maxDecisions⟩
  · have sizes : runs.length = orders.length := by
      simpa only [List.length_map] using congrArg List.length histories
    have product := length_interleavings_mul _ all
    simp only [length_course] at product
    have positive : ∏ party, ((sites party).length + 1)! ≠ 0 :=
      Finset.prod_ne_zero_iff.2 fun party _ => Nat.factorial_ne_zero _
    rw [sizes]
    exact Nat.eq_div_of_mul_eq_left positive (by simpa only [orders, all] using product)
  · intro run member
    have listed : (run.history, run.ending) ∈ orders.map fun order => opened n (told order) := by
      rw [← shown]
      exact List.mem_map_of_mem member
    obtain ⟨order, -, same⟩ := List.mem_map.1 listed
    exact (congrArg Prod.snd same).symm
  · rw [histories]
    apply (nodup_interleavings _ _).map
    intro left right same
    have tails := List.append_cancel_left same
    exact List.map_injective_iff.2 entry_injective tails
  · intro history
    rw [histories, List.mem_map]
    constructor
    · rintro ⟨order, listed, rfl⟩
      exact ⟨order, (mem_interleavings _ rfl).1 listed, rfl⟩
    · rintro ⟨order, interleaves, rfl⟩
      exact ⟨order, (mem_interleavings _ rfl).2 interleaves, rfl⟩

/-- One child exits at once and the other one passes one place before: there are three runs. -/
theorem three_runs_of_two_children :
    let sites : Fin 2 → List Site := fun party => List.replicate party.val ⟨"test.rs", 3, 5⟩
    ∑ party, ((sites party).length + 1) ≤ 3 ∧ ∃ runs : List ExploredRun,
      runs.length = 3 ∧ (∀ run ∈ runs, run.ending = .quiescent) ∧
      (runs.map ExploredRun.history).Nodup ∧
      ((independent sites).explore 3 3 DepthFirst.start none).runs = runs ∧
      Explorer.isComplete ((independent sites).explore 3 3 DepthFirst.start none).explorer = true := by
  intro sites
  have enough : ∑ party, ((sites party).length + 1) ≤ 3 := by decide
  obtain ⟨runs, count, endings, distinct, -, searched⟩ := explore_interleavings sites 3 enough
  have three : runs.length = 3 := count.trans (by decide)
  obtain ⟨taken, complete, -⟩ := searched 3
  refine ⟨enough, runs, three, endings, distinct, ?_, complete.2 three.le⟩
  rw [taken, ← three, List.take_length]

end EventProgram

end ScheduleSearch
