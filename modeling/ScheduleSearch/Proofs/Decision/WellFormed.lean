import ScheduleSearch.Proofs.Decision.Places

/-!
# Well-formed decision trees

An explorer completes a node only where an execution ended.  In this module any node may be
visited or completed at any time, so a node may count as completely tested though nothing was
ever asked there, and `Consistent` need not hold.  `WellFormed` is what remains: links, statuses
and records of the nodes are in order.  `Grown` compares a tree with a later one.  Both are
proved of an expansion and of a completion first, and then of every call.
-/

namespace ScheduleSearch

/-- How far a node is tested, as a number. -/
def NodeStatus.rank : NodeStatus → Nat
  | untested => 0
  | partlyTested => 1
  | completelyTested => 2

private theorem NodeStatus.rank_le (status : NodeStatus) :
    status.rank ≤ NodeStatus.completelyTested.rank := by
  cases status <;> decide

theorem Node.options_congr {left right : Node} (same : left.question = right.question) :
    left.options = right.options := by
  rw [Node.options, Node.options, same]

namespace DecisionTree

variable {tree middle after : DecisionTree} {id : Nat} {question : Question}

/-- The records of the nodes are in order: only the root has no parent, a node has a child for
each of its options, and a child is chosen by the option at its position. -/
structure Recorded (tree : DecisionTree) : Prop where
  rooted : ∀ {id}, id < tree.size → (tree.node id).parent = none → id = root
  unasked : ∀ {id}, (tree.node id).status = .untested → (tree.node id).question = none
  width : ∀ id, (tree.node id).children.length = (tree.node id).options.length
  chosen : ∀ {id position child : Nat}, (tree.node id).children[position]? = some child →
    (tree.node child).chosen = (tree.node id).options[position]?

/-- Links, statuses and records are in order, and what is partly tested can be tested further. -/
structure WellFormed (tree : DecisionTree) : Prop where
  linked : Linked tree
  settled : Settled tree
  recorded : Recorded tree
  partly : ∀ {id}, (tree.node id).status = .partlyTested → (tree.node id).children ≠ []

/-- `after` is `before` with more nodes, records and progress, and nothing is taken back. -/
structure Grown (before after : DecisionTree) : Prop where
  size : before.size ≤ after.size
  parent : ∀ id, id < before.size → (after.node id).parent = (before.node id).parent
  chosen : ∀ id, id < before.size → (after.node id).chosen = (before.node id).chosen
  question : ∀ id question, (before.node id).question = some question →
    (after.node id).question = some question
  children : ∀ id, (before.node id).children ≠ [] →
    (after.node id).children = (before.node id).children
  status : ∀ id, (before.node id).status.rank ≤ (after.node id).status.rank

theorem Grown.refl (tree : DecisionTree) : Grown tree tree :=
  ⟨Nat.le_refl _, fun _ _ => rfl, fun _ _ => rfl, fun _ _ => id, fun _ _ => rfl,
    fun _ => Nat.le_refl _⟩

theorem Grown.trans (first : Grown tree middle) (second : Grown middle after) :
    Grown tree after where
  size := Nat.le_trans first.size second.size
  parent := fun id known => (second.parent id (Nat.lt_of_lt_of_le known first.size)).trans
    (first.parent id known)
  chosen := fun id known => (second.chosen id (Nat.lt_of_lt_of_le known first.size)).trans
    (first.chosen id known)
  question := fun id question asked =>
    second.question id question (first.question id question asked)
  children := by
    intro id some
    have kept := first.children id some
    exact (second.children id (kept ▸ some)).trans kept
  status := fun id => Nat.le_trans (first.status id) (second.status id)

theorem wellFormed_start : WellFormed start := by
  have fresh : ∀ id, start.node id = Node.fresh none none := by
    intro id
    cases id with
    | zero => rfl
    | succ id => rfl
  refine ⟨linked_start, settled_start, ⟨?_, ?_, ?_, ?_⟩, ?_⟩
  · intro id known _
    exact Nat.lt_one_iff.1 known
  · intro id _
    rw [fresh]
    rfl
  · intro id
    rw [fresh]
    rfl
  · intro id position child listed
    rw [fresh] at listed
    cases listed
  · intro id partly
    rw [fresh] at partly
    cases partly

section Expand

variable (linked : Linked tree) (known : id < tree.size)
  (untested : (tree.node id).status = .untested)

include known

private theorem origin_expand {other : Nat} (old : other < tree.size) :
    ((tree.expand id question).node other).parent = (tree.node other).parent ∧
      ((tree.expand id question).node other).chosen = (tree.node other).chosen := by
  by_cases here : other = id
  · rw [here, node_expand_self question known]
    exact ⟨rfl, rfl⟩
  · rw [node_expand_of_ne question old here]
    exact ⟨rfl, rfl⟩

include untested

theorem Recorded.grown_expand (recorded : Recorded tree) (linked : Linked tree) :
    Grown tree (tree.expand id question) := by
  have childless := linked.untested untested
  have unasked := recorded.unasked untested
  have kept : ∀ other, (tree.node other).status.rank ≤
        ((tree.expand id question).node other).status.rank ∧
      ((tree.node other) = Node.fresh none none ∨ other = id ∨
        (tree.expand id question).node other = tree.node other) := by
    intro other
    by_cases here : other = id
    · refine ⟨?_, Or.inr (Or.inl here)⟩
      rw [here, untested]
      exact Nat.zero_le _
    · by_cases old : other < tree.size
      · have same := node_expand_of_ne question old here
        exact ⟨by rw [same], Or.inr (Or.inr same)⟩
      · have blank := node_of_size_le (Nat.le_of_not_lt old)
        exact ⟨by rw [blank]; exact Nat.zero_le _, Or.inl blank⟩
  constructor
  case size =>
    rw [size_expand]
    exact Nat.le_add_right _ _
  case parent => exact fun other old => (origin_expand known old).1
  case chosen => exact fun other old => (origin_expand known old).2
  case question =>
    intro other recordedQuestion asked
    rcases (kept other).2 with blank | rfl | same
    · rw [blank] at asked
      cases asked
    · rw [unasked] at asked
      cases asked
    · rw [same]
      exact asked
  case children =>
    intro other some
    rcases (kept other).2 with blank | rfl | same
    · rw [blank] at some
      exact absurd rfl some
    · exact absurd childless some
    · rw [same]
  case status => exact fun other => (kept other).1

include linked

private theorem Recorded.expand (recorded : Recorded tree) :
    Recorded (tree.expand id question) := by
  have self := node_expand_self question known
  constructor
  case rooted =>
    intro other within orphan
    by_cases old : other < tree.size
    · rw [(origin_expand known old).1] at orphan
      exact recorded.rooted old orphan
    · rw [size_expand] at within
      obtain ⟨position, rfl⟩ := Nat.exists_eq_add_of_le (Nat.le_of_not_lt old)
      rw [node_expand_new tree id (Nat.lt_of_add_lt_add_left within)] at orphan
      cases orphan
  case unasked =>
    intro other unvisited
    have different : other ≠ id := by
      rintro rfl
      rw [self] at unvisited
      cases unvisited
    rcases node_expand_elsewhere question different with same | ⟨parent, chosen, new⟩
    · rw [same] at unvisited ⊢
      exact recorded.unasked unvisited
    · rw [new]
      rfl
  case width =>
    intro other
    by_cases here : other = id
    · rw [here, self]
      exact List.length_range'
    · rcases node_expand_elsewhere question here with same | ⟨parent, chosen, new⟩
      · rw [same]
        exact recorded.width other
      · rw [new]
        rfl
  case chosen =>
    intro other position child listed
    by_cases here : other = id
    · rw [here, self] at listed ⊢
      obtain ⟨within, rfl⟩ := List.getElem?_eq_some_iff.1 listed
      rw [List.length_range'] at within
      rw [List.getElem_range', Nat.one_mul, node_expand_new tree id within]
      exact (List.getElem?_eq_getElem within).symm
    · rcases node_expand_elsewhere question here with same | ⟨parent, chosen, new⟩
      · rw [same] at listed ⊢
        have inside := (linked.childOf (List.mem_of_getElem? listed)).2.1
        rw [(origin_expand known inside).2]
        exact recorded.chosen listed
      · rw [new] at listed
        cases listed

end Expand

private theorem WellFormed.partly_expand (wellFormed : WellFormed tree) {other : Nat}
    (different : other ≠ id)
    (partly : ((tree.expand id question).node other).status = .partlyTested) :
    ((tree.expand id question).node other).children ≠ [] := by
  rcases node_expand_elsewhere question different with same | ⟨parent, chosen, new⟩
  · rw [same] at partly ⊢
    exact wellFormed.partly partly
  · rw [new] at partly
    cases partly

@[simp]
private theorem chosen_mark (tree : DecisionTree) (id other : Nat) (status : NodeStatus) :
    ((tree.mark id status).node other).chosen = (tree.node other).chosen := by
  rcases tree.node_mark_cases id other status with same | marked
  · rw [same]
  · rw [marked]

private theorem chosen_completeFrom (other : Nat) (steps : Nat) :
    ∀ (tree : DecisionTree) (id : Nat),
      ((completeFrom steps tree id).node other).chosen = (tree.node other).chosen := by
  induction steps with
  | zero =>
      intro tree id
      unfold completeFrom
      split
      · exact chosen_mark tree id other _
      · rfl
  | succ steps inductionHypothesis =>
      intro tree id
      unfold completeFrom
      split
      · cases (tree.node id).parent with
        | none => exact chosen_mark tree id other _
        | some above =>
            exact (inductionHypothesis _ above).trans (chosen_mark tree id other _)
      · rfl

private theorem chosen_complete (tree : DecisionTree) (id other : Nat) :
    ((tree.complete id).node other).chosen = (tree.node other).chosen :=
  chosen_completeFrom other id tree id

theorem Raised.grown (raised : Raised tree (tree.complete id) id) :
    Grown tree (tree.complete id) where
  size := Nat.le_of_eq raised.size.symm
  parent := fun other _ => raised.parent other
  chosen := fun other _ => tree.chosen_complete id other
  question := fun other _ asked => (raised.question other).trans asked
  children := fun other _ => raised.children other
  status := by
    intro other
    rcases raised.status other with same | ⟨complete, -⟩
    · rw [same]
    · rw [complete]
      exact (tree.node other).status.rank_le

private theorem Recorded.complete (recorded : Recorded tree)
    (raised : Raised tree (tree.complete id) id) : Recorded (tree.complete id) where
  rooted := by
    intro other known orphan
    rw [raised.size] at known
    rw [raised.parent] at orphan
    exact recorded.rooted known orphan
  unasked := by
    intro other untested
    rw [raised.question]
    rcases raised.status other with same | ⟨complete, -⟩
    · rw [same] at untested
      exact recorded.unasked untested
    · rw [complete] at untested
      cases untested
  width := by
    intro other
    rw [raised.children, Node.options_congr (raised.question other)]
    exact recorded.width other
  chosen := by
    intro other position child listed
    rw [raised.children] at listed
    rw [chosen_complete, Node.options_congr (raised.question other)]
    exact recorded.chosen listed

private theorem Settled.except (settled : Settled tree) (id : Nat) : SettledExcept tree id where
  elsewhere := fun other _ children => settled other children
  here := by
    intro complete
    by_cases childless : (tree.node id).children = []
    · rw [childrenComplete, childless]
      rfl
    · exact (settled id childless).1 complete

private theorem WellFormed.of_complete (linked : Linked tree) (settled : Settled tree)
    (recorded : Recorded tree) (known : id < tree.size)
    (partly : ∀ other, other ≠ id → (tree.node other).status = .partlyTested →
      (tree.node other).children ≠ []) :
    WellFormed (tree.complete id) ∧ Raised tree (tree.complete id) id ∧
      ((tree.node id).children = [] → ((tree.complete id).node id).isComplete = true) := by
  obtain ⟨afterLinked, afterSettled, raised, complete⟩ :=
    settled_completeFrom linked known (Nat.le_refl id) (settled.except id)
  change Raised tree (tree.complete id) id at raised
  have ended : (tree.node id).children = [] → ((tree.complete id).node id).isComplete = true := by
    intro childless
    apply complete
    rw [childrenComplete, childless]
    rfl
  refine ⟨⟨afterLinked, afterSettled, recorded.complete raised, ?_⟩, raised, ended⟩
  intro other stillPartly
  by_cases here : other = id
  · rw [here] at stillPartly ⊢
    intro childless
    have completed := ended ((raised.children id).symm.trans childless)
    rw [Node.isComplete, stillPartly] at completed
    cases completed
  · rcases raised.status other with same | ⟨completed, -⟩
    · rw [raised.children]
      exact partly other here (same.symm.trans stillPartly)
    · cases completed.symm.trans stillPartly

theorem WellFormed.complete (wellFormed : WellFormed tree) (known : id < tree.size) :
    WellFormed (tree.complete id) ∧ Raised tree (tree.complete id) id ∧
      ((tree.node id).children = [] → ((tree.complete id).node id).isComplete = true) :=
  WellFormed.of_complete wellFormed.linked wellFormed.settled wellFormed.recorded known
    fun _ _ => wellFormed.partly

theorem WellFormed.expand (wellFormed : WellFormed tree) (known : id < tree.size)
    (untested : (tree.node id).status = .untested) (offered : question.options ≠ []) :
    WellFormed (tree.expand id question) where
  linked := wellFormed.linked.expand question known untested
  settled := wellFormed.settled.expand wellFormed.linked question known untested
  recorded := wellFormed.recorded.expand wellFormed.linked known untested
  partly := by
    intro other partly
    by_cases here : other = id
    · rw [here, node_expand_self question known]
      intro childless
      have none := congrArg List.length childless
      rw [List.length_range'] at none
      exact offered (List.length_eq_zero_iff.1 none)
    · exact wellFormed.partly_expand here partly

/-- The first visit of a node without options ends an execution there. -/
theorem WellFormed.of_expand_complete (wellFormed : WellFormed tree) (known : id < tree.size)
    (untested : (tree.node id).status = .untested) (unoffered : question.options = []) :
    WellFormed ((tree.expand id question).complete id) ∧
      Raised (tree.expand id question) ((tree.expand id question).complete id) id ∧
      (((tree.expand id question).complete id).node id).isComplete = true := by
  have still : id < (tree.expand id question).size := by
    rw [size_expand]
    exact Nat.lt_of_lt_of_le known (Nat.le_add_right _ _)
  obtain ⟨after, raised, ended⟩ := WellFormed.of_complete
    (wellFormed.linked.expand question known untested)
    (wellFormed.settled.expand wellFormed.linked question known untested)
    (wellFormed.recorded.expand wellFormed.linked known untested) still
    fun _ different => wellFormed.partly_expand different
  refine ⟨after, raised, ended ?_⟩
  rw [node_expand_self question known, unoffered]
  rfl

/-- A visit expands the node, or changes nothing. -/
theorem visit_cases (tree : DecisionTree) (id : Nat) (question : Question) :
    ((tree.node id).status = .untested ∧
      ((question.options ≠ [] ∧ tree.visit id question = .ok (tree.expand id question)) ∨
        (question.options = [] ∧
          tree.visit id question = .ok ((tree.expand id question).complete id)))) ∨
    ((tree.node id).status ≠ .untested ∧
      (tree.visit id question = .ok tree ∨ ∃ fault, tree.visit id question = .error fault)) := by
  unfold visit
  dsimp only
  split
  next untested =>
    refine Or.inl ⟨untested, ?_⟩
    by_cases unoffered : question.options = []
    · exact Or.inr ⟨unoffered, by rw [unoffered]; rfl⟩
    · refine Or.inl ⟨unoffered, ?_⟩
      rw [if_neg]
      rwa [List.isEmpty_iff]
  next tested =>
    refine Or.inr ⟨tested, ?_⟩
    split
    · exact Or.inl rfl
    · exact Or.inr ⟨_, rfl⟩

end DecisionTree

end ScheduleSearch
