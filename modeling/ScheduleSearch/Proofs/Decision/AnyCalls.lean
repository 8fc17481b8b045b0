import ScheduleSearch.Proofs.Decision.WellFormed

/-!
# The decision tree after any calls

Any existing nodes are visited and completed in any order.  The tree stays well formed, it only
grows, and from this everything is read off that an explorer relies on: each node but the root
is a child at one place, the walks from a node towards the root come to an end, and all
executions were tried exactly if an execution ended at every leaf.
-/

namespace ScheduleSearch

/-- A call on a decision tree. -/
inductive TreeCall where
  /-- An execution arrives at a node. -/
  | visit (id : Nat) (question : Question)
  /-- Nothing is left to try at a node. -/
  | complete (id : Nat)
  deriving DecidableEq, Repr

namespace TreeCall

/-- The node that is visited or completed. -/
def node : TreeCall → Nat
  | visit id _ => id
  | complete id => id

/-- By the call an execution ends at a node. -/
def EndsAt (id : Nat) : TreeCall → Prop
  | visit other question => other = id ∧ question.options = []
  | complete other => other = id

end TreeCall

namespace DecisionTree

/-- The tree after a call; a visit that is refused leaves it as it is. -/
def next (tree : DecisionTree) : TreeCall → DecisionTree
  | .visit id question =>
      match tree.visit id question with
      | .ok visited => visited
      | .error _ => tree
  | .complete id => tree.complete id

def run (tree : DecisionTree) (calls : List TreeCall) : DecisionTree :=
  calls.foldl next tree

/-- Every call is about a node that exists when it comes. -/
def Admits (tree : DecisionTree) : List TreeCall → Prop
  | [] => True
  | call :: rest => call.node < tree.size ∧ (tree.next call).Admits rest

instance decidableAdmits :
    (tree : DecisionTree) → (calls : List TreeCall) → Decidable (tree.Admits calls)
  | _, [] => inferInstanceAs (Decidable True)
  | tree, call :: rest =>
      have := decidableAdmits (tree.next call) rest
      inferInstanceAs (Decidable (call.node < tree.size ∧ (tree.next call).Admits rest))

variable {tree after : DecisionTree} {id : Nat} {question : Question} {call : TreeCall}
  {calls : List TreeCall}

theorem next_of_visited (visited : tree.visit id question = .ok after) :
    tree.next (.visit id question) = after := by
  rw [next, visited]

private theorem next_of_refused {fault : Fault} (refused : tree.visit id question = .error fault) :
    tree.next (.visit id question) = tree := by
  rw [next, refused]

private theorem Admits.of_append {early late : List TreeCall}
    (admitted : tree.Admits (early ++ late)) :
    tree.Admits early ∧ (tree.run early).Admits late := by
  induction early generalizing tree with
  | nil => exact ⟨trivial, admitted⟩
  | cons call rest inductionHypothesis =>
      obtain ⟨before, behind⟩ := inductionHypothesis admitted.2
      exact ⟨⟨admitted.1, before⟩, behind⟩

theorem WellFormed.next (wellFormed : WellFormed tree) (known : call.node < tree.size) :
    WellFormed (tree.next call) ∧ Grown tree (tree.next call) := by
  cases call with
  | complete id =>
      obtain ⟨kept, raised, -⟩ := wellFormed.complete known
      exact ⟨kept, raised.grown⟩
  | visit id question =>
      rcases tree.visit_cases id question with
        ⟨untested, ⟨offered, visited⟩ | ⟨unoffered, visited⟩⟩ | ⟨-, visited | ⟨fault, refused⟩⟩
      · rw [next_of_visited visited]
        exact ⟨wellFormed.expand known untested offered,
          wellFormed.recorded.grown_expand known untested wellFormed.linked⟩
      · rw [next_of_visited visited]
        obtain ⟨kept, raised, -⟩ := wellFormed.of_expand_complete known untested unoffered
        exact ⟨kept, (wellFormed.recorded.grown_expand known untested wellFormed.linked).trans
          raised.grown⟩
      · rw [next_of_visited visited]
        exact ⟨wellFormed, .refl tree⟩
      · rw [next_of_refused refused]
        exact ⟨wellFormed, .refl tree⟩

/-- An expansion completes nothing. -/
theorem isComplete_expand (known : id < tree.size) (untested : (tree.node id).status = .untested)
    (other : Nat) :
    ((tree.expand id question).node other).isComplete = (tree.node other).isComplete := by
  by_cases here : other = id
  · rw [here, node_expand_self question known, Node.isComplete, Node.isComplete, untested]
    rfl
  · by_cases old : other < tree.size
    · rw [node_expand_of_ne question old here]
    · rw [node_of_size_le (Nat.le_of_not_lt old)]
      rcases node_expand_cases tree id other question with inside | ⟨_, _, _, new⟩ | new
      · exact absurd inside old
      · rw [new]
        rfl
      · rw [new]

private theorem WellFormed.isComplete_of_childless (wellFormed : WellFormed tree)
    (tested : (tree.node id).status ≠ .untested) (childless : (tree.node id).children = []) :
    (tree.node id).isComplete = true := by
  rw [Node.isComplete]
  cases status : (tree.node id).status with
  | untested => exact absurd status tested
  | partlyTested => exact absurd childless (wellFormed.partly status)
  | completelyTested => rfl

private theorem Raised.leaf_iff {other : Nat} (raised : Raised tree after other)
    (ended : (tree.node other).children = [] → (after.node other).isComplete = true)
    (childless : (after.node id).children = []) :
    (after.node id).isComplete = true ↔ other = id ∨ (tree.node id).isComplete = true := by
  rw [raised.children] at childless
  constructor
  · intro complete
    rcases raised.status id with same | ⟨-, here | children⟩
    · rw [Node.isComplete, same] at complete
      exact Or.inr complete
    · exact Or.inl here.symm
    · exact absurd childless children
  · rintro (rfl | complete)
    · exact ended childless
    · exact raised.isComplete complete

/-- A node that is still without children after a call is complete if it was before, or if by
the call an execution ended there. -/
theorem WellFormed.leaf_next (wellFormed : WellFormed tree) (known : call.node < tree.size)
    (childless : ((tree.next call).node id).children = []) :
    ((tree.next call).node id).isComplete = true ↔
      call.EndsAt id ∨ (tree.node id).isComplete = true := by
  cases call with
  | complete other =>
      obtain ⟨-, raised, ended⟩ := wellFormed.complete known
      exact raised.leaf_iff ended childless
  | visit other question =>
      change other < tree.size at known
      rcases tree.visit_cases other question with
        ⟨untested, ⟨offered, visited⟩ | ⟨unoffered, visited⟩⟩ | ⟨tested, unchanged⟩
      · have goesOn : ¬ (TreeCall.visit other question).EndsAt id := fun ends => offered ends.2
        rw [next_of_visited visited, isComplete_expand known untested, or_iff_right goesOn]
      · rw [next_of_visited visited] at childless ⊢
        obtain ⟨-, raised, ended⟩ :=
          wellFormed.of_expand_complete known untested unoffered
        rw [raised.leaf_iff (fun _ => ended) childless, isComplete_expand known untested]
        exact or_congr_left (and_iff_left unoffered).symm
      · have same : tree.next (.visit other question) = tree := by
          rcases unchanged with visited | ⟨fault, refused⟩
          · exact next_of_visited visited
          · exact next_of_refused refused
        rw [same] at childless ⊢
        refine (or_iff_right_of_imp ?_).symm
        rintro ⟨rfl, -⟩
        exact wellFormed.isComplete_of_childless tested childless

/-- The climb from a node comes to an end, and the list has the nodes that it passes, the last one
first. -/
inductive Climbs (tree : DecisionTree) : Nat → List Nat → Prop
  | top {id : Nat} (orphan : (tree.node id).parent = none) : Climbs tree id [id]
  | up {id parent : Nat} {above : List Nat} (link : (tree.node id).parent = some parent)
      (further : Climbs tree parent above) : Climbs tree id (above ++ [id])

/-- Completion as a walk that stops at a node with something left to try or at the root. -/
inductive Completes : DecisionTree → Nat → DecisionTree → Prop
  | stops {tree : DecisionTree} {id : Nat} (incomplete : tree.childrenComplete id = false) :
      Completes tree id tree
  | top {tree : DecisionTree} {id : Nat} (all : tree.childrenComplete id = true)
      (orphan : (tree.node id).parent = none) :
      Completes tree id (tree.mark id .completelyTested)
  | up {tree after : DecisionTree} {id parent : Nat} (all : tree.childrenComplete id = true)
      (link : (tree.node id).parent = some parent)
      (further : Completes (tree.mark id .completelyTested) parent after) :
      Completes tree id after

private theorem path_of_orphan (orphan : (tree.node id).parent = none) : tree.path id = [id] := by
  rw [path]
  cases id with
  | zero => rfl
  | succ id => simp only [climbFrom, orphan]

private theorem Linked.climbs_path (linked : Linked tree) (id : Nat) :
    Climbs tree id (tree.path id) := by
  induction id using Nat.strongRecOn with
  | _ id inductionHypothesis =>
      cases link : (tree.node id).parent with
      | none =>
          rw [path_of_orphan link]
          exact .top link
      | some parent =>
          rw [path_of_parent linked link]
          exact .up link (inductionHypothesis parent (linked.parent_lt link))

private theorem Linked.completes_within {steps : Nat} :
    ∀ {tree : DecisionTree} {id : Nat}, Linked tree → id ≤ steps →
      Completes tree id (completeFrom steps tree id) := by
  have tested : NodeStatus.completelyTested ≠ .untested := by decide
  induction steps with
  | zero =>
      intro tree id linked within
      have orphan : (tree.node id).parent = none := by
        cases link : (tree.node id).parent with
        | none => rfl
        | some parent =>
            have older := linked.parent_lt link
            omega
      unfold completeFrom
      split
      next all => exact .top all orphan
      next incomplete => exact .stops (Bool.eq_false_iff.2 incomplete)
  | succ steps inductionHypothesis =>
      intro tree id linked within
      unfold completeFrom
      split
      next all =>
        cases link : (tree.node id).parent with
        | none => exact .top all link
        | some parent =>
            have older := linked.parent_lt link
            exact .up all link (inductionHypothesis (linked.mark id tested) (by omega))
      next incomplete => exact .stops (Bool.eq_false_iff.2 incomplete)

private theorem WellFormed.exists_parent (wellFormed : WellFormed tree) (known : id < tree.size)
    (different : id ≠ root) :
    ∃ parent position : Nat, parent < id ∧ (tree.node id).parent = some parent ∧
      (tree.node parent).children[position]? = some id := by
  cases link : (tree.node id).parent with
  | none => exact absurd (wellFormed.recorded.rooted known link) different
  | some parent =>
      obtain ⟨position, listed⟩ := List.getElem?_of_mem (wellFormed.linked.ofParent link)
      exact ⟨parent, position, wellFormed.linked.parent_lt link, rfl, listed⟩

private theorem WellFormed.exists_place (wellFormed : WellFormed tree) :
    ∀ {id : Nat}, id < tree.size → ∃ place, tree.nodeAt place = some id := by
  intro id
  induction id using Nat.strongRecOn with
  | _ id inductionHypothesis =>
      intro known
      by_cases here : id = root
      · rw [here]
        exact ⟨[], rfl⟩
      · obtain ⟨parent, position, older, -, listed⟩ := wellFormed.exists_parent known here
        obtain ⟨place, there⟩ := inductionHypothesis parent older (Nat.lt_trans older known)
        exact ⟨place ++ [position], nodeAt_concat_eq_some.2 ⟨parent, there, listed⟩⟩

/-- Below a root that is completely tested everything is. -/
theorem WellFormed.all_complete (wellFormed : WellFormed tree) (complete : tree.isComplete = true) :
    ∀ {id : Nat}, id < tree.size → (tree.node id).isComplete = true := by
  intro id
  induction id using Nat.strongRecOn with
  | _ id inductionHypothesis =>
      intro known
      by_cases here : id = root
      · rw [here]
        exact complete
      · obtain ⟨parent, position, older, -, listed⟩ := wellFormed.exists_parent known here
        have member := List.mem_of_getElem? listed
        have above := inductionHypothesis parent older (Nat.lt_trans older known)
        exact childrenComplete_iff.1
          ((wellFormed.settled parent (List.ne_nil_of_mem member)).1 above) id member

/-- A node is completely tested if all leaves are: its children are younger than it is. -/
theorem WellFormed.complete_of_leaves (wellFormed : WellFormed tree)
    (leaves : ∀ id, id < tree.size → (tree.node id).children = [] →
      (tree.node id).isComplete = true) (younger : Nat) :
    ∀ {id : Nat}, id < tree.size → tree.size - id ≤ younger →
      (tree.node id).isComplete = true := by
  induction younger with
  | zero =>
      intro id known none
      omega
  | succ younger inductionHypothesis =>
      intro id known within
      by_cases childless : (tree.node id).children = []
      · exact leaves id known childless
      · refine (wellFormed.settled id childless).2 (childrenComplete_iff.2 ?_)
        intro child member
        obtain ⟨below, inside, -⟩ := wellFormed.linked.childOf member
        exact inductionHypothesis inside (by omega)

private theorem WellFormed.isComplete_iff (wellFormed : WellFormed tree) :
    tree.isComplete = true ↔
      ∀ id, id < tree.size → (tree.node id).children = [] → (tree.node id).isComplete = true := by
  constructor
  · exact fun complete id known _ => wellFormed.all_complete complete known
  · exact fun leaves => wellFormed.complete_of_leaves leaves tree.size wellFormed.linked.inhabited
      (Nat.sub_le _ _)

/-! ## All calls -/

private theorem WellFormed.run (wellFormed : WellFormed tree) (admitted : tree.Admits calls) :
    WellFormed (tree.run calls) ∧ Grown tree (tree.run calls) := by
  induction calls generalizing tree with
  | nil => exact ⟨wellFormed, .refl tree⟩
  | cons call rest inductionHypothesis =>
      obtain ⟨kept, grown⟩ := wellFormed.next admitted.1
      obtain ⟨after, further⟩ := inductionHypothesis kept admitted.2
      exact ⟨after, grown.trans further⟩

/-- A node that is without children after all calls is complete if it was in the beginning, or
if by one of the calls an execution ended there. -/
theorem WellFormed.leaf_run (wellFormed : WellFormed tree) (admitted : tree.Admits calls)
    (childless : ((tree.run calls).node id).children = []) :
    ((tree.run calls).node id).isComplete = true ↔
      (∃ call ∈ calls, call.EndsAt id) ∨ (tree.node id).isComplete = true := by
  induction calls generalizing tree with
  | nil => exact (or_iff_right (by rintro ⟨call, member, -⟩; cases member)).symm
  | cons call rest inductionHypothesis =>
      have kept := (wellFormed.next admitted.1).1
      have early : ((tree.next call).node id).children = [] := by
        by_contra some
        exact some (((kept.run admitted.2).2.children id some).symm.trans childless)
      refine (inductionHypothesis kept admitted.2 childless).trans ?_
      rw [wellFormed.leaf_next admitted.1 early, List.exists_mem_cons_iff, or_assoc, or_left_comm]

/-- What is known of a tree after some calls. -/
structure TreeLaw (calls : List TreeCall) (tree : DecisionTree) : Prop where
  place : ∀ id, id < tree.size → id ≠ root → ∃ (parent position : Nat) (option : ThreadId),
    parent < id ∧ (tree.node parent).children[position]? = some id ∧
    (tree.node parent).options[position]? = some option ∧
    (tree.node id).parent = some parent ∧ (tree.node id).chosen = some option ∧
    ∀ other position' : Nat, (tree.node other).children[position']? = some id →
      other = parent ∧ position' = position
  orphan : ∀ id, root ∉ (tree.node id).children
  width : ∀ id, (tree.node id).options.length = (tree.node id).children.length
  settled : ∀ id, (tree.node id).children ≠ [] →
    ((tree.node id).isComplete = true ↔
      ∀ child ∈ (tree.node id).children, (tree.node child).isComplete = true)
  untested : ∀ id, (tree.node id).status = .untested →
    (tree.node id).question = none ∧ (tree.node id).options = [] ∧ (tree.node id).children = []
  path : ∀ id, id < tree.size → Climbs tree id (tree.path id)
  completion : ∀ id, id < tree.size → Completes tree id (tree.complete id)
  depth : ∀ id, id < tree.size → ∃ place, tree.nodeAt place = some id ∧
    tree.depth id = place.length ∧ ∀ other, tree.nodeAt other = some id → other = place
  leaf : ∀ id, id < tree.size → (tree.node id).children = [] →
    ((tree.node id).isComplete = true ↔ ∃ call ∈ calls, call.EndsAt id)
  complete : tree.isComplete = true ↔ ∀ id, id < tree.size → (tree.node id).children = [] →
    (tree.node id).isComplete = true

private theorem WellFormed.treeLaw (wellFormed : WellFormed tree)
    (leaf : ∀ id, (tree.node id).children = [] →
      ((tree.node id).isComplete = true ↔ ∃ call ∈ calls, call.EndsAt id)) :
    TreeLaw calls tree where
  place := by
    intro id known different
    obtain ⟨parent, position, older, link, listed⟩ := wellFormed.exists_parent known different
    obtain ⟨within, found⟩ := List.getElem?_eq_some_iff.1 listed
    have offered : position < (tree.node parent).options.length :=
      wellFormed.recorded.width parent ▸ within
    have chosen := wellFormed.recorded.chosen listed
    rw [List.getElem?_eq_getElem offered] at chosen
    refine ⟨parent, position, _, older, listed, List.getElem?_eq_getElem offered, link, chosen, ?_⟩
    intro other position' there
    obtain rfl : parent = other :=
      Option.some.inj (link.symm.trans (parent_of_listed wellFormed.linked there))
    obtain ⟨within', found'⟩ := List.getElem?_eq_some_iff.1 there
    exact ⟨rfl, (wellFormed.linked.nodup parent).getElem_inj_iff.1 (found'.trans found.symm)⟩
  orphan := fun id member => Nat.not_lt_zero id (wellFormed.linked.childOf member).1
  width := fun id => (wellFormed.recorded.width id).symm
  settled := fun id children => (wellFormed.settled id children).trans childrenComplete_iff
  untested := by
    intro id untested
    have unasked := wellFormed.recorded.unasked untested
    refine ⟨unasked, ?_, wellFormed.linked.untested untested⟩
    rw [Node.options, unasked]
    rfl
  path := fun id _ => wellFormed.linked.climbs_path id
  completion := fun id _ => wellFormed.linked.completes_within (Nat.le_refl id)
  depth := by
    intro id known
    obtain ⟨place, there⟩ := wellFormed.exists_place known
    exact ⟨place, there, depth_eq_length wellFormed.linked there,
      fun other also => nodeAt_injective wellFormed.linked also there⟩
  leaf := fun id _ => leaf id
  complete := wellFormed.isComplete_iff

/-- Whatever existing nodes are visited and completed, the tree is in order, nothing of it is
taken back, and a visit that is refused changes nothing. -/
theorem treeLaw_run (admitted : start.Admits calls) :
    TreeLaw calls (start.run calls) ∧
      (∀ early late, calls = early ++ late → Grown (start.run early) (start.run calls)) ∧
      ∀ id question fault, (start.run calls).visit id question = .error fault →
        (start.run calls).next (.visit id question) = start.run calls := by
  refine ⟨(wellFormed_start.run admitted).1.treeLaw ?_, ?_, ?_⟩
  · intro id childless
    have incomplete : ¬ (start.node id).isComplete = true := by
      cases id <;> exact Bool.false_ne_true
    rw [wellFormed_start.leaf_run admitted childless, or_iff_left incomplete]
  · rintro early late rfl
    obtain ⟨before, behind⟩ := admitted.of_append
    rw [run, run, List.foldl_append]
    exact ((wellFormed_start.run before).1.run behind).2
  · exact fun id question fault refused => next_of_refused refused

/-- A node is completed though nothing was asked there, and a visit of it is refused. -/
def completedUnasked : List TreeCall :=
  [.visit 0 ⟨"main @ start", [.root, .child .root 0]⟩, .complete 1, .visit 1 ⟨"main exit", []⟩,
    .visit 2 ⟨"main.0 @ start", [.child .root 0]⟩, .visit 3 ⟨"main exit", []⟩]

theorem treeLaw_completedUnasked :
    start.Admits completedUnasked ∧ (start.run completedUnasked).isComplete = true ∧
      (start.run completedUnasked).next (.visit 1 ⟨"main exit", []⟩) =
        start.run completedUnasked ∧
      TreeLaw completedUnasked (start.run completedUnasked) := by
  have admitted : start.Admits completedUnasked := by decide +kernel
  obtain ⟨law, -, refused⟩ := treeLaw_run admitted
  exact ⟨admitted, by decide +kernel,
    refused 1 _ (.nondeterministicExecution 1 "\"\" []" "\"main exit\" []") (by decide +kernel),
    law⟩

end DecisionTree

end ScheduleSearch
