import ScheduleSearch.Proofs.Decision.AnyCalls

/-!
# The leftmost path

The number of executions is estimated from the numbers of options on the way to the leftmost
leaf.  `Estimates` is the loop that multiplies them, as a relation: it has a derivation exactly
if the loop comes to an end.  Children are younger than their parents, so it always does.

`Leftmost` says that the leftmost path of a tree leads to the end of an execution.  A path that
does is never altered again, since a tree only grows.
-/

namespace ScheduleSearch

/-- The position of the first option. -/
def Choice.first (choice : Choice) : Fin choice.options.length :=
  ⟨0, List.length_pos_iff.2 choice.offered⟩

private theorem Choice.finRange_eq_cons (choice : Choice) :
    ∃ rest, List.finRange choice.options.length = choice.first :: rest := by
  have wide : 0 < (List.finRange choice.options.length).length := by
    rw [List.length_finRange]
    exact choice.first.isLt
  obtain ⟨head, rest, shape⟩ := List.exists_cons_of_length_pos wide
  have same : (List.finRange choice.options.length)[0] = head := by
    simp only [shape, List.getElem_cons_zero]
  rw [List.getElem_finRange] at same
  exact ⟨rest, shape.trans (congrArg (· :: rest) same.symm)⟩

namespace DecisionProgram

variable {ω : Type}

/-- The numbers of options on the way to the leftmost leaf. -/
def leftmostWidths : DecisionProgram ω → List Nat
  | ended _ => []
  | decision choice below => choice.options.length :: (below choice.first).leftmostWidths

def leftmostLeaf : DecisionProgram ω → Leaf ω
  | ended outcome => ⟨[], outcome⟩
  | decision choice below => (below choice.first).leftmostLeaf.after (choice.step choice.first)

/-- The numbers of options of all nodes at a depth.  A leaf offers nothing. -/
def widthsAt : DecisionProgram ω → Nat → List Nat
  | ended _, 0 => [0]
  | ended _, _ + 1 => []
  | decision choice _, 0 => [choice.options.length]
  | decision choice below, depth + 1 =>
      (List.finRange choice.options.length).flatMap fun position => (below position).widthsAt depth

/-- All nodes at one depth have the same number of options, in particular if they are leaves. -/
def Uniform (program : DecisionProgram ω) : Prop :=
  ∀ depth, ∀ left ∈ program.widthsAt depth, ∀ right ∈ program.widthsAt depth, left = right

private theorem leaves_eq_cons (program : DecisionProgram ω) :
    ∃ rest, program.leaves = program.leftmostLeaf :: rest := by
  induction program with
  | ended outcome => exact ⟨[], rfl⟩
  | decision choice below inductionHypothesis =>
      obtain ⟨positions, shape⟩ := choice.finRange_eq_cons
      obtain ⟨rest, first⟩ := inductionHypothesis choice.first
      rw [leaves, shape, List.flatMap_cons, first, List.map_cons, List.cons_append]
      exact ⟨_, rfl⟩

/-- The leftmost leaf is taken off by the first execution. -/
theorem leftmostLeaf_notMem_drop (program : DecisionProgram ω) {count : Nat}
    (ended : 1 ≤ count) : program.leftmostLeaf ∉ program.leaves.drop count := by
  obtain ⟨rest, shape⟩ := program.leaves_eq_cons
  have distinct : program.leaves.Nodup := .of_map _ program.leaves_nodup_traces
  obtain ⟨further, rfl⟩ := Nat.exists_eq_add_of_le' ended
  rw [shape] at distinct ⊢
  exact fun member => (List.nodup_cons.1 distinct).1 (List.mem_of_mem_drop member)

/-- Where the nodes of two programs have the same numbers of options at each depth, the leftmost
path of one tells the number of leaves of the other. -/
theorem length_leaves_of_alike (program : DecisionProgram ω) :
    ∀ other : DecisionProgram ω,
      (∀ depth, ∀ left ∈ program.widthsAt depth, ∀ right ∈ other.widthsAt depth, left = right) →
      program.leaves.length = other.leftmostWidths.prod := by
  induction program with
  | ended outcome =>
      intro other alike
      cases other with
      | ended outcome' => rfl
      | decision choice' below' =>
          have none := alike 0 0 (List.mem_singleton_self _) _ (List.mem_singleton_self _)
          exact absurd none (Nat.ne_of_lt choice'.first.isLt)
  | decision choice below inductionHypothesis =>
      intro other alike
      have width := alike 0 _ (List.mem_singleton_self choice.options.length)
      cases other with
      | ended outcome' =>
          have none := width 0 (List.mem_singleton_self _)
          exact absurd none.symm (Nat.ne_of_lt choice.first.isLt)
      | decision choice' below' =>
          have each : ∀ position, (below position).leaves.length =
              (below' choice'.first).leftmostWidths.prod := by
            intro position
            refine inductionHypothesis position _ fun depth left leftMember right rightMember => ?_
            exact alike (depth + 1) left
              (List.mem_flatMap.2 ⟨position, List.mem_finRange position, leftMember⟩) right
              (List.mem_flatMap.2 ⟨choice'.first, List.mem_finRange _, rightMember⟩)
          rw [leaves, leftmostWidths, List.prod_cons, List.length_flatMap,
            ← width _ (List.mem_singleton_self _)]
          simp only [List.length_map, each, List.map_const', List.length_finRange,
            List.sum_replicate_nat]

end DecisionProgram

namespace DecisionTree

variable {tree after : DecisionTree} {id estimate result : Nat}

/-- The walk along the first children, with the product of the widths it has passed. -/
inductive Estimates (tree : DecisionTree) : Nat → Nat → Nat → Prop
  | ends {id estimate : Nat} (childless : (tree.node id).children = []) :
      Estimates tree id estimate estimate
  | descends {id estimate result first : Nat} {rest : List Nat}
      (children : (tree.node id).children = first :: rest)
      (further : Estimates tree first
        (min largestEstimate (estimate * (tree.node id).children.length)) result) :
      Estimates tree id estimate result

theorem Estimates.unique {other : Nat} (estimates : Estimates tree id estimate result)
    (also : Estimates tree id estimate other) : result = other := by
  induction estimates with
  | ends childless =>
      cases also with
      | ends => rfl
      | descends children => cases childless.symm.trans children
  | descends children further inductionHypothesis =>
      cases also with
      | ends childless => cases childless.symm.trans children
      | descends children' further' =>
          obtain ⟨rfl, -⟩ := List.cons.inj (children.symm.trans children')
          exact inductionHypothesis further'

theorem Estimates.bounds (estimates : Estimates tree id estimate result) :
    1 ≤ estimate → estimate ≤ largestEstimate → 1 ≤ result ∧ result ≤ largestEstimate := by
  induction estimates with
  | ends childless => exact fun positive bounded => ⟨positive, bounded⟩
  | @descends id estimate result first rest children further inductionHypothesis =>
      intro positive _
      have wide : 1 ≤ (tree.node id).children.length := by
        rw [children]
        exact Nat.le_add_left 1 _
      refine inductionHypothesis (le_min ?_ ?_) (min_le_left _ _)
      · decide
      · exact Nat.mul_pos positive wide

/-- Children are younger than their parents, so as many steps as there are nodes suffice. -/
theorem Linked.estimates_within (linked : Linked tree) (steps : Nat) :
    ∀ {id estimate : Nat}, id < tree.size → tree.size ≤ id + steps →
      Estimates tree id estimate (DepthFirst.estimateFrom tree steps id estimate) := by
  induction steps with
  | zero =>
      intro id estimate known enough
      omega
  | succ steps inductionHypothesis =>
      intro id estimate known enough
      unfold DepthFirst.estimateFrom
      split
      next childless => exact .ends childless
      next first rest children =>
          obtain ⟨younger, inside, -⟩ :=
            linked.childOf (children ▸ List.mem_cons_self : first ∈ (tree.node id).children)
          refine .descends children ?_
          rw [children]
          exact inductionHypothesis inside (by omega)

/-- The leftmost path from a node leads to the end of an execution, and has these numbers of
options. -/
inductive Leftmost (tree : DecisionTree) : Nat → List Nat → Prop
  | ended {id : Nat} {question : Question} (asked : (tree.node id).question = some question)
      (childless : (tree.node id).children = []) : Leftmost tree id []
  | decision {id first : Nat} {rest widths : List Nat}
      (children : (tree.node id).children = first :: rest) (below : Leftmost tree first widths) :
      Leftmost tree id ((tree.node id).children.length :: widths)

variable {widths : List Nat}

private theorem Leftmost.prod_pos (leftmost : Leftmost tree id widths) : 1 ≤ widths.prod := by
  induction leftmost with
  | ended asked childless => exact Nat.le_refl 1
  | decision children below inductionHypothesis =>
      rw [List.prod_cons, children]
      exact Nat.mul_pos (Nat.succ_pos _) inductionHypothesis

private theorem min_mul_min {bound factor : Nat} (positive : 1 ≤ factor) (number : Nat) :
    min bound (min bound number * factor) = min bound (number * factor) := by
  rcases Nat.le_total number bound with below | above
  · rw [min_eq_right below]
  · rw [min_eq_left above, min_eq_left (Nat.le_mul_of_pos_right bound positive),
      min_eq_left (Nat.le_trans above (Nat.le_mul_of_pos_right number positive))]

theorem Leftmost.estimates (leftmost : Leftmost tree id widths) :
    ∀ {estimate : Nat}, estimate ≤ largestEstimate →
      Estimates tree id estimate (min largestEstimate (estimate * widths.prod)) := by
  induction leftmost with
  | ended asked childless =>
      intro estimate bounded
      rw [List.prod_nil, Nat.mul_one, min_eq_right bounded]
      exact .ends childless
  | decision children below inductionHypothesis =>
      intro estimate _
      refine .descends children ?_
      rw [List.prod_cons, ← Nat.mul_assoc, ← min_mul_min below.prod_pos]
      exact inductionHypothesis (min_le_left _ _)

/-- A path that leads to the end of an execution stays as it is. -/
theorem Leftmost.grown (leftmost : Leftmost tree id widths) (grown : Grown tree after)
    (before : Recorded tree) (recorded : Recorded after) : Leftmost after id widths := by
  induction leftmost with
  | @ended id question asked childless =>
      have still := grown.question id question asked
      refine .ended still (List.eq_nil_of_length_eq_zero ?_)
      rw [recorded.width, Node.options_congr (still.trans asked.symm), ← before.width, childless]
      rfl
  | @decision id first rest widths children below inductionHypothesis =>
      have kept := grown.children id (by rw [children]; exact List.cons_ne_nil first rest)
      rw [← kept]
      exact .decision (kept.trans children) inductionHypothesis

/-- Once the leftmost leaf of a program is taken off, the leftmost path is that of the
program. -/
theorem Matches.leftmost {ω : Type} (program : DecisionProgram ω) :
    ∀ {id : Nat}, tree.Matches program id → program.leftmostLeaf ∉ tree.remaining program id →
      Leftmost tree id program.leftmostWidths := by
  have first : ∀ program : DecisionProgram ω, program.leftmostLeaf ∈ program.leaves := by
    intro program
    obtain ⟨rest, shape⟩ := program.leaves_eq_cons
    rw [shape]
    exact List.mem_cons_self
  induction program with
  | ended outcome =>
      intro id recordedHere taken
      rcases recordedHere with untested | ⟨-, childless, question⟩
      · rw [remaining_of_untested _ untested] at taken
        exact absurd (first _) taken
      · exact .ended question childless
  | decision choice below inductionHypothesis =>
      intro id recordedHere taken
      rcases recordedHere with untested | ⟨tested, question, width, children⟩
      · rw [remaining_of_untested _ untested] at taken
        exact absurd (first _) taken
      · have wide : 0 < (tree.node id).children.length := by
          rw [width]
          exact choice.first.isLt
        obtain ⟨child, rest, shape⟩ := List.exists_cons_of_length_pos wide
        have here : tree.childAt id choice.first = child := by
          rw [childAt, shape]
          rfl
        have below := inductionHypothesis choice.first (children choice.first) <| by
          intro remains
          rw [remaining_decision tested] at taken
          exact taken (List.mem_flatMap.2
            ⟨choice.first, List.mem_finRange _, List.mem_map_of_mem remains⟩)
        rw [here] at below
        rw [DecisionProgram.leftmostWidths, ← width]
        exact .decision shape below

end DecisionTree

end ScheduleSearch
