import Mathlib.Algebra.BigOperators.Group.Finset.Basic
import Mathlib.Logic.Hydra
import Mathlib.Order.Interval.Finset.Nat
import ScheduleSearch.Proofs.Decision.Places

/-!
# The frontier of the decision tree

The frontier is made of the nodes at which no execution arrived.  The first visit of one of
them takes it away and puts its children in its place, so the frontier moves in two ways: its
places only branch off to the right of executions that are over (`Passed`), and for decisions
of bounded depth it cannot go on forever, as each node makes way for nodes that are deeper
(`openings`, which are cut as the heads of a hydra are).
-/

namespace ScheduleSearch

/-- The first list branches off to the left of the second one. -/
def Before (left right : List Nat) : Prop :=
  ∃ common first second leftRest rightRest,
    left = common ++ first :: leftRest ∧ right = common ++ second :: rightRest ∧ first < second

theorem before_siblings (place : List Nat) {first second : Nat} (below : first < second) :
    Before (place ++ [first]) (place ++ [second]) :=
  ⟨place, first, second, [], [], rfl, rfl, below⟩

theorem Before.append {left right : List Nat} (before : Before left right)
    (leftMore rightMore : List Nat) : Before (left ++ leftMore) (right ++ rightMore) := by
  obtain ⟨common, first, second, leftRest, rightRest, rfl, rfl, below⟩ := before
  refine ⟨common, first, second, leftRest ++ leftMore, rightRest ++ rightMore, ?_, ?_, below⟩
  · rw [List.append_assoc, List.cons_append]
  · rw [List.append_assoc, List.cons_append]

/-- What branches off to the left comes first in the lexicographic order. -/
theorem Before.lt {left right : List Nat} (before : Before left right) : left < right := by
  obtain ⟨common, first, second, leftRest, rightRest, rfl, rfl, below⟩ := before
  induction common with
  | nil => exact List.Lex.rel below
  | cons head common inductionHypothesis => exact List.Lex.cons inductionHypothesis

/-- Of two lists that branch off neither is a prefix of the other. -/
theorem Before.not_prefix {left right : List Nat} (before : Before left right) :
    ¬ left <+: right ∧ ¬ right <+: left := by
  obtain ⟨common, first, second, leftRest, rightRest, rfl, rfl, below⟩ := before
  rw [List.prefix_append_right_inj, List.prefix_append_right_inj, List.cons_prefix_cons,
    List.cons_prefix_cons]
  constructor
  · rintro ⟨equal, -⟩
    exact absurd equal (Nat.ne_of_lt below)
  · rintro ⟨equal, -⟩
    exact absurd equal (Nat.ne_of_gt below)

namespace DecisionTree

variable {tree after : DecisionTree} {id : Nat} {question : Question}

/-- A place that is known, and at which no execution arrived. -/
def IsOpen (tree : DecisionTree) (place : List Nat) : Prop :=
  ∃ id, tree.nodeAt place = some id ∧ (tree.node id).status = .untested

/-- Every open place branches off to the right of some choices. -/
def Passed (tree : DecisionTree) (choices : List Nat) : Prop :=
  ∀ place, tree.IsOpen place → Before choices place

/-- No open place is to the left of `place`. -/
def Foremost (tree : DecisionTree) (place : List Nat) : Prop :=
  ∀ other, tree.IsOpen other → place <+: other ∨ Before place other

private theorem eq_of_prefix_of_untested (linked : Linked tree) {here place : List Nat}
    (arrived : tree.nodeAt here = some id) (untested : (tree.node id).status = .untested)
    {other : Nat} (there : tree.nodeAt place = some other) (beyond : here <+: place) :
    place = here := by
  obtain ⟨more, rfl⟩ := beyond
  cases more with
  | nil => exact List.append_nil here
  | cons position more =>
      have childless := linked.untested untested
      rw [nodeAt] at arrived there
      simp [List.foldlM_append, arrived, childless] at there

/-- Below a node that is completely tested no place is open. -/
theorem isComplete_beyond (settled : Settled tree) {here : List Nat} (more : List Nat)
    (arrived : tree.nodeAt here = some id) (complete : (tree.node id).isComplete = true)
    {other : Nat} (there : tree.nodeAt (here ++ more) = some other) :
    (tree.node other).isComplete = true := by
  induction more using List.reverseRecOn generalizing other with
  | nil =>
      rw [List.append_nil, arrived] at there
      rwa [← Option.some.inj there]
  | append_singleton more position inductionHypothesis =>
      rw [← List.append_assoc, nodeAt_concat_eq_some] at there
      obtain ⟨parent, above, listed⟩ := there
      have member := List.mem_of_getElem? listed
      have parentComplete := inductionHypothesis above
      rw [settled parent (List.ne_nil_of_mem member)] at parentComplete
      exact childrenComplete_iff.1 parentComplete other member

/-- After a first visit the open places are the other ones that were open, and those one choice
beyond the visited one. -/
theorem FirstVisit.isOpen_cases (visit : FirstVisit tree after id question)
    (linked : Linked tree) (untested : (tree.node id).status = .untested) {here : List Nat}
    (arrived : tree.nodeAt here = some id) {place : List Nat} (isOpen : after.IsOpen place) :
    (tree.IsOpen place ∧ ¬ here <+: place) ∨
      ∃ position, position < question.options.length ∧ place = here ++ [position] := by
  obtain ⟨other, now, unvisited⟩ := isOpen
  rcases visit.nodeAt_cases linked now with before | ⟨above, position, rfl, there, within, -⟩
  · left
    have different : other ≠ id := by
      rintro rfl
      exact visit.tested unvisited
    have record := visit.elsewhere other (nodeAt_lt_size linked before) different
    refine ⟨⟨other, before, (record.untested_iff linked).1 unvisited⟩, ?_⟩
    intro beyond
    have equal := eq_of_prefix_of_untested linked arrived untested before beyond
    rw [equal, arrived] at before
    exact different (Option.some.inj before).symm
  · right
    exact ⟨position, within, by rw [nodeAt_injective linked there arrived]⟩

/-- What was passed stays passed. -/
theorem FirstVisit.passed (visit : FirstVisit tree after id question) (linked : Linked tree)
    (untested : (tree.node id).status = .untested) {here : List Nat}
    (arrived : tree.nodeAt here = some id) {choices : List Nat}
    (passed : tree.Passed choices) : after.Passed choices := by
  intro place isOpen
  rcases visit.isOpen_cases linked untested arrived isOpen with
    ⟨before, -⟩ | ⟨position, -, rfl⟩
  · exact passed place before
  · have further := (passed here ⟨id, arrived, untested⟩).append [] [position]
    rwa [List.append_nil] at further

private theorem FirstVisit.parent_eq (visit : FirstVisit tree after id question)
    (linked : Linked tree)
    (untested : (tree.node id).status = .untested) {other : Nat} (old : other < tree.size) :
    (after.node other).parent = (tree.node other).parent := by
  have childless := linked.untested untested
  have same : ∀ above, above ≠ id → above < tree.size →
      (after.node above).children = (tree.node above).children := by
    intro above different known
    exact (visit.elsewhere above known different).children
  cases link : (tree.node other).parent with
  | some above =>
      have listed := linked.ofParent link
      have different : above ≠ id := by
        rintro rfl
        rw [childless] at listed
        cases listed
      have known := Nat.lt_trans (linked.parent_lt link) old
      rw [← same above different known] at listed
      exact (visit.consistent.linked.childOf listed).2.2
  | none =>
      cases now : (after.node other).parent with
      | none => rfl
      | some above =>
          have listed := visit.consistent.linked.ofParent now
          have known := Nat.lt_trans (visit.consistent.linked.parent_lt now) old
          by_cases equal : above = id
          · rw [equal, visit.children] at listed
            obtain ⟨position, -, rfl⟩ := List.mem_range'.1 listed
            omega
          · rw [same above equal known] at listed
            rw [(linked.childOf listed).2.2] at link
            cases link

private theorem FirstVisit.path_eq (visit : FirstVisit tree after id question)
    (linked : Linked tree)
    (untested : (tree.node id).status = .untested) (other : Nat) (old : other < tree.size) :
    after.path other = tree.path other := by
  induction other using Nat.strongRecOn with
  | _ other inductionHypothesis =>
      have parent := visit.parent_eq linked untested old
      cases link : (tree.node other).parent with
      | none =>
          rw [link] at parent
          rw [path, path]
          cases other with
          | zero => rfl
          | succ other => simp only [climbFrom, link, parent]
      | some above =>
          rw [link] at parent
          have older := linked.parent_lt link
          rw [path_of_parent linked link, path_of_parent visit.consistent.linked parent,
            inductionHypothesis above older (Nat.lt_trans older old)]

private theorem FirstVisit.depth_new (visit : FirstVisit tree after id question)
    (linked : Linked tree)
    (known : id < tree.size) (untested : (tree.node id).status = .untested) {other : Nat}
    (new : tree.size ≤ other ∧ other < tree.size + question.options.length) :
    after.depth other = tree.depth id + 1 := by
  have grown := visit.consistent.linked
  have child : other ∈ (after.node id).children := by
    rw [visit.children, List.mem_range']
    exact ⟨other - tree.size, by omega, by omega⟩
  obtain ⟨above, shape⟩ := path_eq_append grown id
  rw [depth, depth, ← visit.path_eq linked untested id known,
    path_of_parent grown (grown.childOf child).2.2, shape]
  simp only [List.length_append, List.length_singleton]
  omega

/-- The nodes at which no execution arrived. -/
def openNodes (tree : DecisionTree) : Finset Nat :=
  (Finset.range tree.size).filter fun id => (tree.node id).status = .untested

/-- For each node at which no execution arrived, the number of decisions that may still be met
below it if there are no more than `bound` in an execution. -/
def openings (bound : Nat) (tree : DecisionTree) : Multiset Nat :=
  ∑ id ∈ tree.openNodes, {bound - tree.depth id}

private theorem FirstVisit.openNodes_eq (visit : FirstVisit tree after id question)
    (linked : Linked tree) :
    after.openNodes = tree.openNodes.erase id ∪
      Finset.Ico tree.size (tree.size + question.options.length) := by
  ext other
  simp only [openNodes, Finset.mem_union, Finset.mem_erase, Finset.mem_filter, Finset.mem_range,
    Finset.mem_Ico, visit.size]
  by_cases old : other < tree.size
  · by_cases equal : other = id
    · rw [equal]
      have tested := visit.tested
      constructor
      · rintro ⟨-, unvisited⟩
        exact absurd unvisited tested
      · omega
    · rw [(visit.elsewhere other old equal).untested_iff linked]
      constructor
      · rintro ⟨-, unvisited⟩
        exact Or.inl ⟨equal, old, unvisited⟩
      · rintro (⟨-, -, unvisited⟩ | ⟨beyond, -⟩)
        · exact ⟨by omega, unvisited⟩
        · omega
  · have fresh := visit.fresh other (Nat.le_of_not_lt old)
    constructor
    · rintro ⟨within, -⟩
      exact Or.inr ⟨by omega, within⟩
    · rintro (⟨-, known, -⟩ | ⟨-, within⟩)
      · exact absurd known old
      · exact ⟨within, fresh⟩

/-- A first visit cuts one opening and puts smaller ones in its place. -/
theorem FirstVisit.cuts (visit : FirstVisit tree after id question) (linked : Linked tree)
    (known : id < tree.size) (untested : (tree.node id).status = .untested) {bound : Nat}
    (within : question.options ≠ [] → tree.depth id < bound) :
    Relation.CutExpand (· < ·) (openings bound after) (openings bound tree) := by
  have isOpen : id ∈ tree.openNodes := by
    rw [openNodes, Finset.mem_filter, Finset.mem_range]
    exact ⟨known, untested⟩
  have apart : Disjoint (tree.openNodes.erase id)
      (Finset.Ico tree.size (tree.size + question.options.length)) := by
    rw [Finset.disjoint_left]
    intro other old new
    rw [openNodes, Finset.mem_erase, Finset.mem_filter, Finset.mem_range] at old
    rw [Finset.mem_Ico] at new
    omega
  have unchanged : ∑ other ∈ tree.openNodes.erase id, ({bound - after.depth other} : Multiset Nat)
      = ∑ other ∈ tree.openNodes.erase id, {bound - tree.depth other} := by
    refine Finset.sum_congr rfl ?_
    intro other old
    rw [openNodes, Finset.mem_erase, Finset.mem_filter, Finset.mem_range] at old
    rw [depth, depth, visit.path_eq linked untested other old.2.1]
  refine ⟨∑ other ∈ Finset.Ico tree.size (tree.size + question.options.length),
    {bound - after.depth other}, bound - tree.depth id, ?_, ?_⟩
  · intro opening member
    obtain ⟨other, new, same⟩ := Multiset.mem_sum.1 member
    obtain rfl := Multiset.mem_singleton.1 same
    rw [Finset.mem_Ico] at new
    have offered : question.options ≠ [] := by
      rw [← List.length_pos_iff]
      omega
    have room := within offered
    rw [visit.depth_new linked known untested new]
    omega
  · rw [openings, openings, visit.openNodes_eq linked, Finset.sum_union apart, unchanged,
      ← Finset.sum_erase_add _ _ isOpen]
    exact add_right_comm _ _ _

end DecisionTree

end ScheduleSearch
