import Mathlib.Data.List.Induction
import ScheduleSearch.Proofs.Decision.DepthFirstWalk

/-!
# Places in the decision tree

A *place* is a list of choices, and `nodeAt` is the node to which they lead from the root.
Different places have different nodes, and the choices recorded on the way to a node are its
place again, so a tree is read as a map from places to questions (`askedAt`).

`FirstVisit` says what the first visit of a node does to the whole tree, whether a decision is
recorded there or the end of an execution.  Main statement of this module:
`FirstVisit.askedAt_eq`, the map changes at that one place.
-/

namespace ScheduleSearch

namespace DecisionTree

variable {tree after : DecisionTree}

/-- The node at which some choices arrive. -/
def nodeAt (tree : DecisionTree) (place : List Nat) : Option Nat :=
  place.foldlM (fun id position => (tree.node id).children[position]?) root

/-- The question recorded at a place, if an execution arrived there. -/
def askedAt (tree : DecisionTree) (place : List Nat) : Option Question :=
  (tree.nodeAt place).bind fun id => (tree.node id).question

private theorem nodeAt_concat (place : List Nat) (position : Nat) :
    tree.nodeAt (place ++ [position]) =
      (tree.nodeAt place).bind fun id => (tree.node id).children[position]? := by
  simp [nodeAt, List.foldlM_append]

theorem nodeAt_concat_eq_some {place : List Nat} {position child : Nat} :
    tree.nodeAt (place ++ [position]) = some child ↔
      ∃ id, tree.nodeAt place = some id ∧ (tree.node id).children[position]? = some child := by
  rw [nodeAt_concat]
  exact Option.bind_eq_some_iff

theorem askedAt_eq {place : List Nat} {id : Nat} (here : tree.nodeAt place = some id) :
    tree.askedAt place = (tree.node id).question := by
  rw [askedAt, here]
  rfl

section Linked

variable (linked : Linked tree)

include linked

theorem parent_of_listed {id position child : Nat}
    (listed : (tree.node id).children[position]? = some child) :
    (tree.node child).parent = some id :=
  (linked.childOf (List.mem_of_getElem? listed)).2.2

private theorem parent_root : (tree.node root).parent = none := by
  cases link : (tree.node root).parent with
  | none => rfl
  | some parent => exact absurd (linked.parent_lt link) (Nat.not_lt_zero parent)

theorem nodeAt_lt_size {place : List Nat} {id : Nat} (here : tree.nodeAt place = some id) :
    id < tree.size := by
  rcases List.eq_nil_or_concat place with rfl | ⟨above, position, rfl⟩
  · obtain rfl := Option.some.inj here
    exact linked.inhabited
  · rw [List.concat_eq_append, nodeAt_concat_eq_some] at here
    obtain ⟨parent, -, listed⟩ := here
    exact (linked.childOf (List.mem_of_getElem? listed)).2.1

/-- Different places have different nodes. -/
theorem nodeAt_injective {left right : List Nat} {id : Nat} :
    tree.nodeAt left = some id → tree.nodeAt right = some id → left = right := by
  induction left using List.reverseRecOn generalizing right id with
  | nil =>
      intro leftHere rightHere
      obtain rfl := Option.some.inj leftHere
      rcases List.eq_nil_or_concat right with rfl | ⟨above, position, rfl⟩
      · rfl
      · rw [List.concat_eq_append, nodeAt_concat_eq_some] at rightHere
        obtain ⟨parent, -, listed⟩ := rightHere
        have link := parent_of_listed linked listed
        rw [parent_root linked] at link
        cases link
  | append_singleton left position inductionHypothesis =>
      intro leftHere rightHere
      obtain ⟨leftParent, leftAbove, leftListed⟩ := nodeAt_concat_eq_some.1 leftHere
      have link := parent_of_listed linked leftListed
      rcases List.eq_nil_or_concat right with rfl | ⟨above, other, rfl⟩
      · obtain rfl := Option.some.inj rightHere
        rw [parent_root linked] at link
        cases link
      · rw [List.concat_eq_append, nodeAt_concat_eq_some] at rightHere
        obtain ⟨rightParent, rightAbove, rightListed⟩ := rightHere
        obtain rfl : leftParent = rightParent :=
          Option.some.inj (link.symm.trans (parent_of_listed linked rightListed))
        obtain rfl := inductionHypothesis leftAbove rightAbove
        obtain ⟨within, found⟩ := List.getElem?_eq_some_iff.1 leftListed
        obtain ⟨otherWithin, otherFound⟩ := List.getElem?_eq_some_iff.1 rightListed
        have equal : position = other :=
          (linked.nodup leftParent).getElem_inj_iff.1 (found.trans otherFound.symm)
        rw [equal, List.concat_eq_append]

/-- As many decisions lead to a node as its place has choices. -/
theorem depth_eq_length {place : List Nat} {id : Nat} (here : tree.nodeAt place = some id) :
    tree.depth id = place.length := by
  have length : (tree.path id).length = place.length + 1 := by
    induction place using List.reverseRecOn generalizing id with
    | nil =>
        obtain rfl := Option.some.inj here
        rfl
    | append_singleton place position inductionHypothesis =>
        obtain ⟨parent, above, listed⟩ := nodeAt_concat_eq_some.1 here
        rw [path_of_parent linked (parent_of_listed linked listed), List.length_append,
          inductionHypothesis above, List.length_append]
        rfl
  rw [depth, length]
  rfl

/-- The choices recorded on the way to a node are its place. -/
theorem choices_eq_place {place : List Nat} {id : Nat} (here : tree.nodeAt place = some id) :
    Trace.choices (tree.decisionsTo id) = place := by
  induction place using List.reverseRecOn generalizing id with
  | nil =>
      obtain rfl := Option.some.inj here
      rw [decisionsTo_root linked]
      rfl
  | append_singleton place position inductionHypothesis =>
      obtain ⟨parent, above, listed⟩ := nodeAt_concat_eq_some.1 here
      have initial := inductionHypothesis above
      rw [Trace.choices] at initial ⊢
      rw [decisionsTo_child linked listed, List.map_append, initial]
      rfl

end Linked

/-- A node at which an execution arrived knows its question and has a child for each option;
where nothing was offered it is completely tested. -/
structure Consistent (tree : DecisionTree) : Prop where
  linked : Linked tree
  settled : Settled tree
  unasked : ∀ {id}, (tree.node id).status = .untested → (tree.node id).question = none
  asked : ∀ {id}, (tree.node id).status ≠ .untested →
    ∃ question, (tree.node id).question = some question ∧
      (tree.node id).children.length = question.options.length
  ended : ∀ {id}, (tree.node id).status ≠ .untested → (tree.node id).children = [] →
    (tree.node id).isComplete = true

theorem consistent_start : Consistent start := by
  have fresh : ∀ id, start.node id = Node.fresh none none := by
    intro id
    cases id with
    | zero => rfl
    | succ id => rfl
  refine ⟨linked_start, settled_start, ?_, ?_, ?_⟩
  · intro id _
    rw [fresh]
    rfl
  · intro id tested
    rw [fresh] at tested
    exact absurd rfl tested
  · intro id tested
    rw [fresh] at tested
    exact absurd rfl tested

theorem Consistent.untested_iff (consistent : Consistent tree) {place : List Nat} {id : Nat}
    (here : tree.nodeAt place = some id) :
    (tree.node id).status = .untested ↔ tree.askedAt place = none := by
  rw [askedAt_eq here]
  constructor
  · exact consistent.unasked
  · intro unasked
    cases status : (tree.node id).status with
    | untested => rfl
    | partlyTested | completelyTested =>
        have tested : (tree.node id).status ≠ .untested := by
          rw [status]
          exact fun impossible => NodeStatus.noConfusion impossible
        obtain ⟨question, asked, -⟩ := consistent.asked tested
        rw [unasked] at asked
        cases asked

/-- Where a question is recorded there is a child for each of its options. -/
theorem Consistent.width (consistent : Consistent tree) {place : List Nat} {id : Nat}
    (here : tree.nodeAt place = some id) {question : Question}
    (asked : tree.askedAt place = some question) :
    (tree.node id).children.length = question.options.length := by
  have tested : (tree.node id).status ≠ .untested := by
    rw [ne_eq, consistent.untested_iff here, asked]
    exact Option.some_ne_none question
  obtain ⟨recorded, found, width⟩ := consistent.asked tested
  rw [askedAt_eq here, found] at asked
  rwa [← Option.some.inj asked]

/-! ## The first visit of a node -/

/-- `after` is `tree` with a question recorded at the node `id`, at which no execution had
arrived.  Each option has a new child; of the other nodes some may have been completed. -/
structure FirstVisit (tree after : DecisionTree) (id : Nat) (question : Question) : Prop where
  consistent : Consistent after
  size : after.size = tree.size + question.options.length
  asked : (after.node id).question = some question
  children : (after.node id).children = List.range' tree.size question.options.length
  elsewhere : ∀ other, other < tree.size → other ≠ id → SameRecord tree after other
  fresh : ∀ other, tree.size ≤ other → (after.node other).status = .untested

/-- Elsewhere an expansion has the nodes of before and fresh ones. -/
theorem node_expand_elsewhere {id other : Nat} (question : Question) (different : other ≠ id) :
    (tree.expand id question).node other = tree.node other ∨
      ∃ parent position, (tree.expand id question).node other = Node.fresh parent position := by
  rcases node_expand_cases tree id other question with old | ⟨_, _, _, new⟩ | new
  · exact Or.inl (node_expand_of_ne question old different)
  · exact Or.inr ⟨_, _, new⟩
  · exact Or.inr ⟨_, _, new⟩

private theorem node_expand_visited {id other : Nat} {question : Question}
    (visited : ((tree.expand id question).node other).status ≠ .untested) :
    other = id ∨ (tree.expand id question).node other = tree.node other := by
  by_cases here : other = id
  · exact Or.inl here
  · refine Or.inr ((node_expand_elsewhere question here).resolve_right ?_)
    rintro ⟨parent, position, new⟩
    rw [new] at visited
    exact visited rfl

private theorem Consistent.expand (consistent : Consistent tree) {id : Nat} {question : Question}
    (offered : question.options ≠ []) (known : id < tree.size)
    (untested : (tree.node id).status = .untested) :
    FirstVisit tree (tree.expand id question) id question := by
  have self := node_expand_self question known
  constructor
  case consistent =>
    refine ⟨consistent.linked.expand question known untested,
      consistent.settled.expand consistent.linked question known untested, ?_, ?_, ?_⟩
    · intro other unvisited
      have different : other ≠ id := by
        rintro rfl
        rw [self] at unvisited
        cases unvisited
      rcases node_expand_elsewhere question different with same | ⟨parent, position, new⟩
      · rw [same] at unvisited ⊢
        exact consistent.unasked unvisited
      · rw [new]
        rfl
    · intro other visited
      rcases node_expand_visited visited with rfl | same
      · exact ⟨question, by rw [self], by rw [self]; exact List.length_range'⟩
      · rw [same] at visited ⊢
        exact consistent.asked visited
    · intro other visited childless
      rcases node_expand_visited visited with rfl | same
      · rw [self] at childless
        have none := congrArg List.length childless
        rw [List.length_range'] at none
        exact absurd (List.length_eq_zero_iff.1 none) offered
      · rw [same] at visited childless ⊢
        exact consistent.ended visited childless
  case size => exact size_expand ..
  case asked => rw [self]
  case children => rw [self]
  case elsewhere =>
    intro other old different
    exact .of_eq (node_expand_of_ne question old different)
  case fresh =>
    intro other beyond
    rcases node_expand_cases tree id other question with old | ⟨_, _, _, new⟩ | new
    · exact absurd old (Nat.not_lt.2 beyond)
    · rw [new]
      rfl
    · rw [new]
      rfl

private theorem Consistent.firstVisit_of_ended (consistent : Consistent tree) {id : Nat}
    {label : String} (known : id < tree.size) (ended : Ended tree after id ⟨label, []⟩) :
    FirstVisit tree after id ⟨label, []⟩ := by
  have completed : (after.node id).isComplete = true := by
    rw [Node.isComplete, ended.complete]
    rfl
  constructor
  case consistent =>
    refine ⟨ended.linked, ended.settled, ?_, ?_, ?_⟩
    · intro other unvisited
      by_cases equal : other = id
      · rw [equal, ended.complete] at unvisited
        cases unvisited
      · have record := ended.sameRecord equal
        rw [record.question]
        exact consistent.unasked ((record.untested_iff consistent.linked).1 unvisited)
    · intro other visited
      by_cases equal : other = id
      · rw [equal]
        exact ⟨_, ended.question, by rw [ended.children]; rfl⟩
      · have record := ended.sameRecord equal
        rw [record.question, record.children]
        exact consistent.asked fun untested =>
          visited ((record.untested_iff consistent.linked).2 untested)
    · intro other visited childless
      by_cases equal : other = id
      · rw [equal]
        exact completed
      · have record := ended.sameRecord equal
        rw [record.children] at childless
        have before := consistent.ended
          (fun untested => visited ((record.untested_iff consistent.linked).2 untested)) childless
        rcases record.status with same | ⟨-, children⟩
        · rwa [Node.isComplete, same]
        · exact absurd childless children
  case size => exact ended.size
  case asked => exact ended.question
  case children => exact ended.children
  case elsewhere =>
    intro other _ different
    exact ended.sameRecord different
  case fresh =>
    intro other beyond
    have outside : tree.node other = Node.fresh none none := node_of_size_le beyond
    have different : other ≠ id := by omega
    rw [(ended.sameRecord different).untested_iff consistent.linked, outside]
    rfl

/-- The first visit of a node succeeds, whatever is asked there. -/
theorem Consistent.visit_untested (consistent : Consistent tree) {id : Nat} (question : Question)
    (known : id < tree.size) (untested : (tree.node id).status = .untested) :
    ∃ after, tree.visit id question = .ok after ∧ FirstVisit tree after id question := by
  obtain ⟨label, options⟩ := question
  cases options with
  | nil =>
      obtain ⟨after, visited, ended⟩ :=
        visit_end consistent.linked consistent.settled known untested label
      exact ⟨after, visited, consistent.firstVisit_of_ended known ended⟩
  | cons first rest =>
      have offered : first :: rest ≠ [] := List.cons_ne_nil first rest
      refine ⟨tree.expand id ⟨label, first :: rest⟩, ?_,
        consistent.expand offered known untested⟩
      simp [visit, untested]

namespace FirstVisit

variable {id : Nat} {question : Question}

theorem tested (visit : FirstVisit tree after id question) :
    (after.node id).status ≠ .untested := by
  intro untested
  have unasked := visit.consistent.unasked untested
  rw [visit.asked] at unasked
  cases unasked

/-- Every place keeps its node. -/
theorem nodeAt_of_nodeAt (visit : FirstVisit tree after id question) (linked : Linked tree)
    (untested : (tree.node id).status = .untested) {place : List Nat} {other : Nat}
    (there : tree.nodeAt place = some other) : after.nodeAt place = some other := by
  induction place using List.reverseRecOn generalizing other with
  | nil => exact there
  | append_singleton place position inductionHypothesis =>
      obtain ⟨parent, above, listed⟩ := nodeAt_concat_eq_some.1 there
      have different : parent ≠ id := by
        rintro rfl
        rw [linked.untested untested] at listed
        cases listed
      refine nodeAt_concat_eq_some.2 ⟨parent, inductionHypothesis above, ?_⟩
      rw [(visit.elsewhere parent (nodeAt_lt_size linked above) different).children]
      exact listed

/-- The only new places are one choice beyond the visited one. -/
theorem nodeAt_cases (visit : FirstVisit tree after id question) (linked : Linked tree)
    {place : List Nat} {other : Nat} (there : after.nodeAt place = some other) :
    tree.nodeAt place = some other ∨
      ∃ above position, place = above ++ [position] ∧ tree.nodeAt above = some id ∧
        position < question.options.length ∧ other = tree.size + position := by
  induction place using List.reverseRecOn generalizing other with
  | nil => exact Or.inl there
  | append_singleton place position inductionHypothesis =>
      obtain ⟨parent, above, listed⟩ := nodeAt_concat_eq_some.1 there
      rcases inductionHypothesis above with before | ⟨_, earlier, -, -, -, rfl⟩
      · by_cases equal : parent = id
        · right
          rw [equal, visit.children] at listed
          obtain ⟨within, rfl⟩ := List.getElem?_eq_some_iff.1 listed
          rw [List.length_range'] at within
          refine ⟨place, position, rfl, equal ▸ before, within, ?_⟩
          rw [List.getElem_range', Nat.one_mul]
        · left
          have known := nodeAt_lt_size linked before
          rw [(visit.elsewhere parent known equal).children] at listed
          exact nodeAt_concat_eq_some.2 ⟨parent, before, listed⟩
      · -- a new node has no children
        have childless := visit.consistent.linked.untested
          (visit.fresh (tree.size + earlier) (Nat.le_add_right _ _))
        rw [childless] at listed
        cases listed

/-- The first visit of a node records the question at its place, and nothing anywhere else. -/
theorem askedAt_eq (visit : FirstVisit tree after id question) (linked : Linked tree)
    (untested : (tree.node id).status = .untested) {here : List Nat}
    (arrived : tree.nodeAt here = some id) (place : List Nat) :
    after.askedAt place = if place = here then some question else tree.askedAt place := by
  by_cases equal : place = here
  · rw [if_pos equal, equal,
      DecisionTree.askedAt_eq (visit.nodeAt_of_nodeAt linked untested arrived), visit.asked]
  · rw [if_neg equal]
    cases there : tree.nodeAt place with
    | some other =>
        have different : other ≠ id := by
          rintro rfl
          exact equal (nodeAt_injective linked there arrived)
        rw [DecisionTree.askedAt_eq (visit.nodeAt_of_nodeAt linked untested there),
          DecisionTree.askedAt_eq there,
          (visit.elsewhere other (nodeAt_lt_size linked there) different).question]
    | none =>
        rw [askedAt, askedAt, there]
        cases now : after.nodeAt place with
        | none => rfl
        | some other =>
            rcases visit.nodeAt_cases linked now with before | ⟨_, position, -, -, -, rfl⟩
            · rw [there] at before
              cases before
            · exact visit.consistent.unasked (visit.fresh _ (Nat.le_add_right _ _))

end FirstVisit

end DecisionTree

end ScheduleSearch
