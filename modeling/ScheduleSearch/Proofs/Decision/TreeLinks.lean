import ScheduleSearch.Decision.Tree

/-!
# Links of the decision tree

What marking and expanding a node do to the single nodes, and the invariant `Linked`: parent
links and lists of children say the same, children are younger than their parent, and a node
at which no execution arrived has no children.  `Under` is the relation between a node and the
nodes of its subtree; the subtrees of two children of one node have no node in common.
-/

namespace ScheduleSearch.DecisionTree

private theorem node_eq_getD (tree : DecisionTree) (id : Nat) :
    tree.node id = tree.nodes[id]?.getD (Node.fresh none none) :=
  Array.getD_eq_getD_getElem?

theorem node_of_size_le {tree : DecisionTree} {id : Nat} (beyond : tree.size ≤ id) :
    tree.node id = Node.fresh none none := by
  have outside : tree.nodes[id]? = none := Array.getElem?_eq_none beyond
  rw [node_eq_getD, outside]
  rfl

@[simp]
theorem size_mark (tree : DecisionTree) (id : Nat) (status : NodeStatus) :
    (tree.mark id status).size = tree.size := by
  simp [mark, size]

theorem node_mark_self {tree : DecisionTree} {id : Nat} (status : NodeStatus)
    (known : id < tree.size) :
    (tree.mark id status).node id = { tree.node id with status := status } := by
  have inside : tree.nodes[id]? = some tree.nodes[id] := Array.getElem?_eq_getElem known
  rw [node_eq_getD, node_eq_getD, mark, Array.getElem?_modify, if_pos rfl, inside]
  rfl

theorem node_mark_of_ne {tree : DecisionTree} {id other : Nat} (status : NodeStatus)
    (different : other ≠ id) : (tree.mark id status).node other = tree.node other := by
  rw [node_eq_getD, node_eq_getD, mark, Array.getElem?_modify, if_neg (Ne.symm different)]

/-- A mark changes nothing but the status of the marked node. -/
theorem node_mark_cases (tree : DecisionTree) (id other : Nat) (status : NodeStatus) :
    (tree.mark id status).node other = tree.node other ∨
      (tree.mark id status).node other = { tree.node other with status := status } := by
  by_cases equal : other = id
  · by_cases known : id < tree.size
    · rw [equal]
      exact Or.inr (node_mark_self status known)
    · left
      have beyond : tree.size ≤ other := by omega
      rw [node_of_size_le beyond, node_of_size_le (by simpa using beyond)]
  · exact Or.inl (node_mark_of_ne status equal)

@[simp]
theorem parent_mark (tree : DecisionTree) (id other : Nat) (status : NodeStatus) :
    ((tree.mark id status).node other).parent = (tree.node other).parent := by
  rcases tree.node_mark_cases id other status with same | marked
  · rw [same]
  · rw [marked]

@[simp]
theorem question_mark (tree : DecisionTree) (id other : Nat) (status : NodeStatus) :
    ((tree.mark id status).node other).question = (tree.node other).question := by
  rcases tree.node_mark_cases id other status with same | marked
  · rw [same]
  · rw [marked]

@[simp]
theorem children_mark (tree : DecisionTree) (id other : Nat) (status : NodeStatus) :
    ((tree.mark id status).node other).children = (tree.node other).children := by
  rcases tree.node_mark_cases id other status with same | marked
  · rw [same]
  · rw [marked]

private theorem nodes_expand (tree : DecisionTree) (id : Nat) (question : Question) :
    (tree.expand id question).nodes =
      (tree.nodes.modify id fun node =>
        { node with
          question := some question
          children := List.range' tree.size question.options.length
          status := .partlyTested }) ++
        (question.options.map fun option => Node.fresh (some id) (some option)).toArray := by
  apply Array.ext'
  simp [expand]

@[simp]
theorem size_expand (tree : DecisionTree) (id : Nat) (question : Question) :
    (tree.expand id question).size = tree.size + question.options.length := by
  simp [size, nodes_expand]

theorem node_expand_self {tree : DecisionTree} {id : Nat} (question : Question)
    (known : id < tree.size) :
    (tree.expand id question).node id =
      { tree.node id with
        question := some question
        children := List.range' tree.size question.options.length
        status := .partlyTested } := by
  have inside : tree.nodes[id]? = some tree.nodes[id] := Array.getElem?_eq_getElem known
  rw [node_eq_getD, node_eq_getD, nodes_expand, Array.getElem?_append_left
    (by simpa [size] using known), Array.getElem?_modify, if_pos rfl, inside]
  rfl

theorem node_expand_of_ne {tree : DecisionTree} {id other : Nat} (question : Question)
    (known : other < tree.size) (different : other ≠ id) :
    (tree.expand id question).node other = tree.node other := by
  rw [node_eq_getD, node_eq_getD, nodes_expand, Array.getElem?_append_left
    (by simpa [size] using known), Array.getElem?_modify, if_neg (Ne.symm different)]

theorem node_expand_new (tree : DecisionTree) (id : Nat) {question : Question} {position : Nat}
    (within : position < question.options.length) :
    (tree.expand id question).node (tree.size + position) =
      Node.fresh (some id) (some question.options[position]) := by
  rw [node_eq_getD, nodes_expand, Array.getElem?_append_right (by simp [size])]
  simp [size, within]

/-- The nodes of an expanded tree are the old ones and one for each offered thread. -/
theorem node_expand_cases (tree : DecisionTree) (id other : Nat) (question : Question) :
    other < tree.size ∨
      (∃ position, ∃ within : position < question.options.length,
        other = tree.size + position ∧ (tree.expand id question).node other =
          Node.fresh (some id) (some question.options[position])) ∨
      (tree.expand id question).node other = Node.fresh none none := by
  by_cases old : other < tree.size
  · exact Or.inl old
  · by_cases within : other - tree.size < question.options.length
    · refine Or.inr (Or.inl ⟨other - tree.size, within, by omega, ?_⟩)
      have shape : tree.size + (other - tree.size) = other := by omega
      have new := tree.node_expand_new id within
      rwa [shape] at new
    · refine Or.inr (Or.inr (node_of_size_le ?_))
      rw [size_expand]
      omega

/-- Parents and children agree. -/
structure Linked (tree : DecisionTree) : Prop where
  inhabited : 0 < tree.size
  childOf : ∀ {id child}, child ∈ (tree.node id).children →
    id < child ∧ child < tree.size ∧ (tree.node child).parent = some id
  ofParent : ∀ {id parent}, (tree.node id).parent = some parent →
    id ∈ (tree.node parent).children
  nodup : ∀ id, (tree.node id).children.Nodup
  untested : ∀ {id}, (tree.node id).status = .untested → (tree.node id).children = []

theorem linked_start : Linked start := by
  have fresh : ∀ id, start.node id = Node.fresh none none := by
    intro id
    cases id with
    | zero => rfl
    | succ id => rfl
  refine ⟨by decide, ?_, ?_, ?_, ?_⟩
  · intro id child member
    rw [fresh] at member
    cases member
  · intro id parent link
    rw [fresh] at link
    cases link
  · intro id
    rw [fresh]
    exact List.nodup_nil
  · intro id _
    rw [fresh]
    rfl

namespace Linked

variable {tree : DecisionTree}

theorem parent_lt (linked : Linked tree) {id parent : Nat}
    (link : (tree.node id).parent = some parent) : parent < id :=
  (linked.childOf (linked.ofParent link)).1

/-- Marks do not touch the links. -/
theorem mark (linked : Linked tree) (id : Nat) {status : NodeStatus}
    (tested : status ≠ .untested) : Linked (tree.mark id status) := by
  refine ⟨by simpa using linked.inhabited, ?_, ?_, ?_, ?_⟩
  · intro other child member
    rw [children_mark] at member
    rw [parent_mark, size_mark]
    exact linked.childOf member
  · intro other above link
    rw [parent_mark] at link
    rw [children_mark]
    exact linked.ofParent link
  · intro other
    rw [children_mark]
    exact linked.nodup other
  · intro other untested
    rw [children_mark]
    rcases tree.node_mark_cases id other status with same | marked
    · rw [same] at untested
      exact linked.untested untested
    · rw [marked] at untested
      exact absurd untested tested

/-- Expanding a node at which no execution arrived gives it children of its own. -/
theorem expand (linked : Linked tree) {id : Nat} (question : Question)
    (known : id < tree.size) (untested : (tree.node id).status = .untested) :
    Linked (tree.expand id question) := by
  have childless := linked.untested untested
  have self := node_expand_self question known
  refine ⟨?_, ?_, ?_, ?_, ?_⟩
  · rw [size_expand]
    exact Nat.lt_of_lt_of_le linked.inhabited (Nat.le_add_right _ _)
  · intro other child member
    rw [size_expand]
    by_cases equal : other = id
    · rw [equal, self] at member
      obtain ⟨position, within, rfl⟩ := List.mem_range'.1 member
      rw [equal, Nat.one_mul, node_expand_new tree id within]
      exact ⟨by omega, by omega, rfl⟩
    · rcases node_expand_cases tree id other question with old | ⟨_, _, _, fresh⟩ | fresh
      · rw [node_expand_of_ne question old equal] at member
        obtain ⟨younger, inside, link⟩ := linked.childOf member
        refine ⟨younger, by omega, ?_⟩
        by_cases same : child = id
        · rw [same, self, ← same]
          exact link
        · rw [node_expand_of_ne question inside same]
          exact link
      · rw [fresh] at member
        cases member
      · rw [fresh] at member
        cases member
  · intro other above link
    rcases node_expand_cases tree id other question with old | ⟨position, within, rfl, fresh⟩ |
        fresh
    · have linkBefore : (tree.node other).parent = some above := by
        by_cases equal : other = id
        · rw [equal, self] at link
          rw [equal]
          exact link
        · rwa [node_expand_of_ne question old equal] at link
      have listed := linked.ofParent linkBefore
      have different : above ≠ id := by
        intro equal
        rw [equal, childless] at listed
        cases listed
      rw [node_expand_of_ne question (Nat.lt_trans (linked.parent_lt linkBefore) old) different]
      exact listed
    · rw [fresh] at link
      cases link
      rw [self]
      exact List.mem_range'.2 ⟨position, within, by omega⟩
    · rw [fresh] at link
      cases link
  · intro other
    by_cases equal : other = id
    · rw [equal, self]
      exact List.nodup_range'
    · rcases node_expand_cases tree id other question with old | ⟨_, _, _, fresh⟩ | fresh
      · rw [node_expand_of_ne question old equal]
        exact linked.nodup other
      · rw [fresh]
        exact List.nodup_nil
      · rw [fresh]
        exact List.nodup_nil
  · intro other stillUntested
    by_cases equal : other = id
    · rw [equal, self] at stillUntested
      cases stillUntested
    · rcases node_expand_cases tree id other question with old | ⟨_, _, _, fresh⟩ | fresh
      · rw [node_expand_of_ne question old equal] at stillUntested ⊢
        exact linked.untested stillUntested
      · rw [fresh]
        rfl
      · rw [fresh]
        rfl

end Linked

/-! ## Subtrees -/

/-- `Under tree ancestor id`: climbing from `id` one comes past `ancestor`. -/
inductive Under (tree : DecisionTree) (ancestor : Nat) : Nat → Prop
  | here : Under tree ancestor ancestor
  | further {id parent : Nat} :
      (tree.node id).parent = some parent → Under tree ancestor parent →
      Under tree ancestor id

namespace Under

variable {tree : DecisionTree}

theorem le (linked : Linked tree) {ancestor id : Nat} (under : Under tree ancestor id) :
    ancestor ≤ id := by
  induction under with
  | here => exact Nat.le_refl _
  | further link _ inductionHypothesis =>
      exact Nat.le_trans inductionHypothesis (Nat.le_of_lt (linked.parent_lt link))

theorem of_child {above child id : Nat} (link : (tree.node child).parent = some above)
    (under : Under tree child id) : Under tree above id := by
  induction under with
  | here => exact .further link .here
  | further step _ inductionHypothesis => exact .further step inductionHypothesis

theorem lt_size {ancestor id : Nat} (known : ancestor < tree.size)
    (under : Under tree ancestor id) : id < tree.size := by
  cases under with
  | here => exact known
  | @further _ parent link _ =>
      rcases Nat.lt_or_ge id tree.size with inside | beyond
      · exact inside
      · rw [node_of_size_le beyond] at link
        cases link

/-- Of two nodes above a third one, one is above the other. -/
theorem comparable {left right id : Nat} (underLeft : Under tree left id)
    (underRight : Under tree right id) : Under tree left right ∨ Under tree right left := by
  induction underLeft with
  | here => exact Or.inr underRight
  | further link underLeft inductionHypothesis =>
      cases underRight with
      | here => exact Or.inl (.further link underLeft)
      | further otherLink underRight =>
          rw [link] at otherLink
          cases otherLink
          exact inductionHypothesis underRight

/-- No child of a node is above another child of the same node. -/
theorem sibling (linked : Linked tree) {above left right : Nat}
    (leftLink : (tree.node left).parent = some above)
    (rightLink : (tree.node right).parent = some above)
    (under : Under tree left right) : left = right := by
  cases under with
  | here => rfl
  | further link under =>
      rw [rightLink] at link
      cases link
      have climbed := under.le linked
      have younger := linked.parent_lt leftLink
      omega

/-- The subtrees of two children of a node are disjoint. -/
theorem disjoint (linked : Linked tree) {above left right id : Nat}
    (leftLink : (tree.node left).parent = some above)
    (rightLink : (tree.node right).parent = some above)
    (underLeft : Under tree left id) (underRight : Under tree right id) : left = right := by
  rcases comparable underLeft underRight with leftAbove | rightAbove
  · exact sibling linked leftLink rightLink leftAbove
  · exact (sibling linked rightLink leftLink rightAbove).symm

/-- The ancestors of a node depend on nothing but the parent links of older nodes. -/
theorem of_parents_eq (linked : Linked tree) {grown : DecisionTree}
    (parents : ∀ id, id < tree.size → (grown.node id).parent = (tree.node id).parent)
    {ancestor id : Nat} (known : id < tree.size) (under : Under grown ancestor id) :
    Under tree ancestor id := by
  induction under with
  | here => exact .here
  | further link _ inductionHypothesis =>
      rw [parents _ known] at link
      exact .further link
        (inductionHypothesis (Nat.lt_trans (linked.parent_lt link) known))

end Under

section Paths

variable {tree : DecisionTree}

private theorem climbFrom_eq_path (linked : Linked tree) (id : Nat) :
    ∀ (steps : Nat) (below : List Nat), id ≤ steps →
      tree.climbFrom steps id below = tree.path id ++ below := by
  induction id using Nat.strongRecOn with
  | _ id inductionHypothesis =>
      intro steps below within
      cases link : (tree.node id).parent with
      | none =>
          have stops : ∀ steps below, tree.climbFrom steps id below = id :: below := by
            intro steps below
            cases steps with
            | zero => rfl
            | succ steps => simp only [climbFrom, link]
          rw [path, stops, stops]
          rfl
      | some parent =>
          have older := linked.parent_lt link
          have climbs : ∀ steps below, id ≤ steps →
              tree.climbFrom steps id below = tree.path parent ++ id :: below := by
            intro steps below enough
            cases steps with
            | zero => omega
            | succ steps =>
                simp only [climbFrom, link]
                exact inductionHypothesis parent older steps (id :: below) (by omega)
          rw [path, climbs steps below within, climbs id [] (Nat.le_refl id)]
          simp

theorem path_of_parent (linked : Linked tree) {id parent : Nat}
    (link : (tree.node id).parent = some parent) :
    tree.path id = tree.path parent ++ [id] := by
  have older := linked.parent_lt link
  cases id with
  | zero => omega
  | succ id =>
      have climbed := tree.climbFrom_eq_path linked parent id [id + 1] (by omega)
      rw [path]
      simp only [climbFrom, link]
      exact climbed

/-- A path ends at its node. -/
theorem path_eq_append (linked : Linked tree) (id : Nat) :
    ∃ above, tree.path id = above ++ [id] := by
  cases link : (tree.node id).parent with
  | none =>
      refine ⟨[], ?_⟩
      rw [path]
      cases id with
      | zero => rfl
      | succ id => simp only [climbFrom, link, List.nil_append]
  | some parent => exact ⟨tree.path parent, path_of_parent linked link⟩

end Paths

end ScheduleSearch.DecisionTree
