import ScheduleSearch.Proofs.Decision.TreeLinks

/-!
# Completion of the decision tree

A tree is `Settled` when every node with children is completely tested exactly if all its
children are.  Completing a node may break this at its parent, and only there; the climb of
`completeFrom` moves the one doubtful node towards the root until it is in order again.
-/

namespace ScheduleSearch.DecisionTree

variable {tree : DecisionTree}

/-- Every node with children is completely tested exactly if all its children are. -/
def Settled (tree : DecisionTree) : Prop :=
  ∀ id, (tree.node id).children ≠ [] →
    ((tree.node id).isComplete = true ↔ tree.childrenComplete id = true)

theorem settled_start : Settled start := by
  intro id children
  refine absurd ?_ children
  cases id with
  | zero => rfl
  | succ id => rfl

theorem childrenComplete_iff {id : Nat} :
    tree.childrenComplete id = true ↔
      ∀ child ∈ (tree.node id).children, (tree.node child).isComplete = true :=
  List.all_eq_true

/-- An expansion adds only children at which no execution arrived, so it leaves in order what
was in order. -/
theorem Settled.expand (settled : Settled tree) (linked : Linked tree) {id : Nat}
    (question : Question) (known : id < tree.size)
    (untested : (tree.node id).status = .untested) : Settled (tree.expand id question) := by
  have self := node_expand_self question known
  intro other children
  by_cases equal : other = id
  · rw [equal, self] at children
    have partly : ((tree.expand id question).node id).isComplete = false := by
      rw [self]
      rfl
    rw [equal, partly]
    refine ⟨fun impossible => Bool.noConfusion impossible, fun all => ?_⟩
    obtain ⟨child, member⟩ := List.exists_mem_of_ne_nil _ children
    have complete := childrenComplete_iff.1 all child (by rw [self]; exact member)
    obtain ⟨position, within, rfl⟩ := List.mem_range'.1 member
    rw [Nat.one_mul, node_expand_new tree id within] at complete
    cases complete
  · rcases node_expand_cases tree id other question with old | ⟨_, _, _, fresh⟩ | fresh
    · have same := node_expand_of_ne question old equal
      rw [same] at children ⊢
      rw [settled other children, childrenComplete_iff, childrenComplete_iff, same]
      have alike : ∀ child ∈ (tree.node other).children,
          (((tree.expand id question).node child).isComplete = true ↔
            (tree.node child).isComplete = true) := by
        intro child member
        by_cases here : child = id
        · rw [here, self, Node.isComplete, Node.isComplete, untested]
          simp
        · rw [node_expand_of_ne question (linked.childOf member).2.1 here]
      exact forall₂_congr fun child member => (alike child member).symm
    · rw [fresh] at children
      exact absurd rfl children
    · rw [fresh] at children
      exact absurd rfl children

/-- `after` differs from `tree` at most in nodes that were marked as completely tested, and
these are `id` and nodes with children. -/
structure Raised (tree after : DecisionTree) (id : Nat) : Prop where
  size : after.size = tree.size
  parent : ∀ other, (after.node other).parent = (tree.node other).parent
  question : ∀ other, (after.node other).question = (tree.node other).question
  children : ∀ other, (after.node other).children = (tree.node other).children
  status : ∀ other, (after.node other).status = (tree.node other).status ∨
    (after.node other).status = .completelyTested ∧
      (other = id ∨ (tree.node other).children ≠ [])

private theorem Raised.refl (tree : DecisionTree) (id : Nat) : Raised tree tree id :=
  ⟨rfl, fun _ => rfl, fun _ => rfl, fun _ => rfl, fun _ => Or.inl rfl⟩

private theorem Raised.mark (tree : DecisionTree) (id : Nat) :
    Raised tree (tree.mark id .completelyTested) id := by
  refine ⟨size_mark .., fun _ => parent_mark .., fun _ => question_mark ..,
    fun _ => children_mark .., ?_⟩
  intro other
  by_cases equal : other = id
  · rcases tree.node_mark_cases id other .completelyTested with same | marked
    · rw [same]
      exact Or.inl rfl
    · rw [marked]
      exact Or.inr ⟨rfl, Or.inl equal⟩
  · rw [node_mark_of_ne _ equal]
    exact Or.inl rfl

private theorem Raised.trans {middle after : DecisionTree} {id parent : Nat}
    (first : Raised tree middle id) (second : Raised middle after parent)
    (above : (tree.node parent).children ≠ []) : Raised tree after id := by
  refine ⟨second.size.trans first.size, ?_, ?_, ?_, ?_⟩
  · intro other
    rw [second.parent, first.parent]
  · intro other
    rw [second.question, first.question]
  · intro other
    rw [second.children, first.children]
  · intro other
    rcases second.status other with same | ⟨complete, which⟩
    · rw [same]
      exact first.status other
    · refine Or.inr ⟨complete, Or.inr ?_⟩
      rcases which with equal | some
      · rw [equal]
        exact above
      · rwa [first.children] at some

theorem Raised.isComplete {after : DecisionTree} {id other : Nat} (raised : Raised tree after id)
    (complete : (tree.node other).isComplete = true) :
    (after.node other).isComplete = true := by
  rcases raised.status other with same | ⟨completed, -⟩
  · rwa [Node.isComplete, same]
  · rw [Node.isComplete, completed]
    rfl

private theorem isComplete_mark_self {id : Nat} (known : id < tree.size) :
    ((tree.mark id .completelyTested).node id).isComplete = true := by
  rw [node_mark_self _ known]
  rfl

private theorem childrenComplete_mark_of_not_mem {id other : Nat}
    (apart : id ∉ (tree.node other).children) :
    (tree.mark id .completelyTested).childrenComplete other = tree.childrenComplete other := by
  rw [Bool.eq_iff_iff, childrenComplete_iff, childrenComplete_iff, children_mark]
  refine forall₂_congr fun child member => ?_
  rw [node_mark_of_ne]
  rintro rfl
  exact apart member

/-- In order except at `id`, which is not marked too early. -/
structure SettledExcept (tree : DecisionTree) (id : Nat) : Prop where
  elsewhere : ∀ other, other ≠ id → (tree.node other).children ≠ [] →
    ((tree.node other).isComplete = true ↔ tree.childrenComplete other = true)
  here : (tree.node id).isComplete = true → tree.childrenComplete id = true

/-- Where some child is incomplete, the doubtful node is in order as it is. -/
private theorem SettledExcept.settled {id : Nat} (except : SettledExcept tree id)
    (incomplete : tree.childrenComplete id ≠ true) : Settled tree := by
  intro other children
  by_cases equal : other = id
  · rw [equal]
    exact ⟨except.here, fun all => absurd all incomplete⟩
  · exact except.elsewhere other equal children

/-- After the mark only a node with `id` as a child can be out of order. -/
private theorem SettledExcept.mark {id : Nat} (except : SettledExcept tree id)
    (known : id < tree.size) (all : tree.childrenComplete id = true) {other : Nat}
    (apart : id ∉ (tree.node other).children) (children : (tree.node other).children ≠ []) :
    ((tree.mark id .completelyTested).node other).isComplete = true ↔
      (tree.mark id .completelyTested).childrenComplete other = true := by
  rw [childrenComplete_mark_of_not_mem apart]
  by_cases equal : other = id
  · rw [equal]
    exact ⟨fun _ => all, fun _ => isComplete_mark_self known⟩
  · rw [node_mark_of_ne _ equal]
    exact except.elsewhere other equal children

/-- A node without parent is nobody's child, and its mark leaves nothing out of order. -/
private theorem SettledExcept.settled_mark {id : Nat} (except : SettledExcept tree id)
    (linked : Linked tree) (known : id < tree.size) (all : tree.childrenComplete id = true)
    (rootless : (tree.node id).parent = none) : Settled (tree.mark id .completelyTested) := by
  intro other children
  rw [children_mark] at children
  refine except.mark known all ?_ children
  intro member
  rw [(linked.childOf member).2.2] at rootless
  cases rootless

/-- The mark moves the doubt on to the parent, the only node that has `id` as a child. -/
private theorem SettledExcept.mark_parent {id parent : Nat} (except : SettledExcept tree id)
    (linked : Linked tree) (known : id < tree.size) (all : tree.childrenComplete id = true)
    (link : (tree.node id).parent = some parent) :
    SettledExcept (tree.mark id .completelyTested) parent := by
  have older := Nat.ne_of_lt (linked.parent_lt link)
  constructor
  · intro other different children
    rw [children_mark] at children
    refine except.mark known all ?_ children
    intro member
    rw [(linked.childOf member).2.2] at link
    exact different (Option.some.inj link)
  · intro complete
    rw [node_mark_of_ne _ older] at complete
    have before := (except.elsewhere parent older
      (List.ne_nil_of_mem (linked.ofParent link))).1 complete
    rw [childrenComplete_iff] at before ⊢
    intro child member
    rw [children_mark] at member
    exact (Raised.mark tree id).isComplete (before child member)

/-- The climb puts a tree in order that is in order except at the node it starts from. -/
theorem settled_completeFrom {steps : Nat} :
    ∀ {tree : DecisionTree} {id : Nat}, Linked tree → id < tree.size → id ≤ steps →
      SettledExcept tree id →
      Linked (completeFrom steps tree id) ∧ Settled (completeFrom steps tree id) ∧
        Raised tree (completeFrom steps tree id) id ∧
        (tree.childrenComplete id = true →
          ((completeFrom steps tree id).node id).isComplete = true) := by
  have tested : NodeStatus.completelyTested ≠ .untested := by decide
  -- Parents are older than their children, so the climb ends within `id` steps.
  induction steps with
  | zero =>
      intro tree id linked known within except
      have rootless : (tree.node id).parent = none := by
        cases link : (tree.node id).parent with
        | none => rfl
        | some parent =>
            have younger := linked.parent_lt link
            omega
      unfold completeFrom
      split
      next all =>
        exact ⟨linked.mark id tested, except.settled_mark linked known all rootless,
          Raised.mark tree id, fun _ => isComplete_mark_self known⟩
      next incomplete =>
        exact ⟨linked, except.settled incomplete, Raised.refl tree id,
          fun all => absurd all incomplete⟩
  | succ steps inductionHypothesis =>
      intro tree id linked known within except
      unfold completeFrom
      split
      next all =>
        have markedLinked := linked.mark id tested
        cases link : (tree.node id).parent with
        | none =>
            exact ⟨markedLinked, except.settled_mark linked known all link, Raised.mark tree id,
              fun _ => isComplete_mark_self known⟩
        | some parent =>
            have older := linked.parent_lt link
            obtain ⟨afterLinked, settled, raised, -⟩ :=
              inductionHypothesis markedLinked (by rw [size_mark]; omega) (by omega)
                (except.mark_parent linked known all link)
            exact ⟨afterLinked, settled,
              (Raised.mark tree id).trans raised (List.ne_nil_of_mem (linked.ofParent link)),
              fun _ => raised.isComplete (isComplete_mark_self known)⟩
      next incomplete =>
        exact ⟨linked, except.settled incomplete, Raised.refl tree id,
          fun all => absurd all incomplete⟩

/-- `after` records that an execution ended at `id`, and is otherwise what `tree` was, except
that nodes above may have been completed. -/
structure Ended (tree after : DecisionTree) (id : Nat) (question : Question) : Prop where
  linked : Linked after
  settled : Settled after
  size : after.size = tree.size
  question : (after.node id).question = some question
  children : (after.node id).children = []
  complete : (after.node id).status = .completelyTested
  elsewhere : ∀ other, other ≠ id → (after.node other).question = (tree.node other).question ∧
    (after.node other).children = (tree.node other).children ∧
    ((after.node other).status = (tree.node other).status ∨
      (after.node other).status = .completelyTested ∧ (tree.node other).children ≠ [])

private theorem node_expand_nil_of_ne {id other : Nat} (label : String) (different : other ≠ id) :
    (tree.expand id ⟨label, []⟩).node other = tree.node other := by
  by_cases old : other < tree.size
  · exact node_expand_of_ne _ old different
  · have beyond : tree.size ≤ other := Nat.le_of_not_lt old
    rw [node_of_size_le beyond, node_of_size_le (by rw [size_expand]; exact beyond)]

/-- Visiting a node for the first time without an option ends an execution there. -/
theorem visit_end {id : Nat} (linked : Linked tree) (settled : Settled tree)
    (known : id < tree.size) (untested : (tree.node id).status = .untested) (label : String) :
    ∃ after, tree.visit id ⟨label, []⟩ = .ok after ∧ Ended tree after id ⟨label, []⟩ := by
  have self := node_expand_self ⟨label, []⟩ known
  have expandedLinked := linked.expand ⟨label, []⟩ known untested
  have expandedSettled := settled.expand linked ⟨label, []⟩ known untested
  have childless : ((tree.expand id ⟨label, []⟩).node id).children = [] := by
    rw [self]
    rfl
  have all : (tree.expand id ⟨label, []⟩).childrenComplete id = true := by
    rw [childrenComplete, childless]
    rfl
  have except : SettledExcept (tree.expand id ⟨label, []⟩) id :=
    ⟨fun other _ children => expandedSettled other children, fun _ => all⟩
  obtain ⟨afterLinked, afterSettled, raised, complete⟩ :=
    settled_completeFrom expandedLinked (by rw [size_expand]; omega) (Nat.le_refl id) except
  refine ⟨(tree.expand id ⟨label, []⟩).complete id, by simp [visit, untested], ?_⟩
  constructor
  case linked => exact afterLinked
  case settled => exact afterSettled
  case size => exact raised.size.trans (size_expand ..)
  case question => rw [DecisionTree.complete, raised.question, self]
  case children => rw [DecisionTree.complete, raised.children, childless]
  case complete => exact eq_of_beq (complete all)
  case elsewhere =>
    intro other different
    have same : (tree.expand id ⟨label, []⟩).node other = tree.node other :=
      node_expand_nil_of_ne label different
    refine ⟨?_, ?_, ?_⟩
    · rw [DecisionTree.complete, raised.question, same]
    · rw [DecisionTree.complete, raised.children, same]
    · rcases raised.status other with unchanged | ⟨completed, equal | children⟩
      · rw [same] at unchanged
        exact Or.inl unchanged
      · exact absurd equal different
      · rw [same] at children
        exact Or.inr ⟨completed, children⟩

end ScheduleSearch.DecisionTree
