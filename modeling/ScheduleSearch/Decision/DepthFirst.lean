import ScheduleSearch.Decision.Tree

/-!
# Depth-first exploration

The depth-first explorer walks down the decision tree with the execution it steers and takes,
at each node, the first way on that is not completely tested.  A decision that differs from
what the tree has recorded is not reported while the execution goes on: from there the first
option is taken, and the fault comes up when the execution ends.
-/

namespace ScheduleSearch

/-- The label under which the end of an execution is recorded. -/
def endOfExecution : String := "end of execution"

/-- The largest number a count of executions is given as. -/
def largestEstimate : Nat := 0xffffffffffffffff

/-- The depth-first explorer. -/
structure DepthFirst where
  /-- The decisions of all executions. -/
  tree : DecisionTree
  /-- The node at which the current execution is. -/
  current : Nat
  /-- The fault to be reported at the end of the current execution. -/
  deferred : Option Fault
  /-- The number of executions that ended. -/
  runs : Nat
  deriving DecidableEq, Repr, Inhabited

namespace DepthFirst

/-- Nothing was explored. -/
def start : DepthFirst where
  tree := .start
  current := DecisionTree.root
  deferred := none
  runs := 0

def noOptions (explorer : DepthFirst) : Fault :=
  .nondeterministicExecution (explorer.tree.depth explorer.current) "at least one option" "none"

/-- The way on from a node: the first open child, or the first child where none is open. -/
def wayOn (tree : DecisionTree) (id : Nat) : Option (Nat × Nat) :=
  match tree.firstOpenChild id with
  | some way => some way
  | none => (tree.node id).children.head?.map fun child => (0, child)

/-- Visits the current node and moves to the child that is explored next. -/
def advance (explorer : DepthFirst) (question : Question) :
    Except Fault (ThreadId × DepthFirst) := do
  let tree ← explorer.tree.visit explorer.current question
  let visited := { explorer with tree := tree }
  match wayOn tree explorer.current with
  | none => throw visited.noOptions
  | some (position, child) =>
      match question.options[position]? with
      | none => throw visited.noOptions
      | some chosen => return (chosen, { visited with current := child })

/-- Answers a question.  Only a question without options is refused at once. -/
def decide (explorer : DepthFirst) (question : Question) : Except Fault ThreadId × DepthFirst :=
  match question.options with
  | [] => (.error explorer.noOptions, explorer)
  | first :: _ =>
      if explorer.deferred.isSome then (.ok first, explorer)
      else
        match explorer.advance question with
        | .ok (chosen, advanced) => (.ok chosen, advanced)
        | .error fault => (.ok first, { explorer with deferred := some fault })

/-- The execution ended.  Its end is a place where nothing is offered. -/
def finish (explorer : DepthFirst) : Except Fault Unit × DepthFirst :=
  let ended := explorer.tree.visit explorer.current ⟨endOfExecution, []⟩
  let rewound : DepthFirst :=
    { tree := match ended with
        | .ok tree => tree
        | .error _ => explorer.tree
      current := DecisionTree.root
      deferred := none
      runs := explorer.runs + 1 }
  match explorer.deferred with
  | some fault => (.error fault, rewound)
  | none => (ended.map fun _ => (), rewound)

/-- The recorded decision that leads from a node to one of its children. -/
def stepBetween (tree : DecisionTree) (above below : Nat) : Option TraceStep :=
  let node := tree.node above
  (node.children.findIdx? (· == below)).map fun position =>
    { label := node.question.elim "" (·.label)
      options := node.options.map ThreadId.name
      choice := position }

/-- The decisions on the way to the current node. -/
def trace (explorer : DepthFirst) : Trace :=
  let path := explorer.tree.path explorer.current
  (path.zip path.tail).filterMap fun (above, below) => stepBetween explorer.tree above below

/-- The product of the numbers of options along the leftmost path, cut off at the largest
number.  Children are younger than their parents, so the walk passes no node twice. -/
def estimateFrom (tree : DecisionTree) : Nat → Nat → Nat → Nat
  | 0, _, estimate => estimate
  | steps + 1, id, estimate =>
      match (tree.node id).children with
      | [] => estimate
      | first :: rest =>
          estimateFrom tree steps first (min largestEstimate (estimate * (rest.length + 1)))

/-- A guess at the number of executions: exact if all executions take decisions of the same
widths. -/
def estimate (explorer : DepthFirst) : Nat :=
  estimateFrom explorer.tree explorer.tree.size DecisionTree.root 1

instance : Explorer DepthFirst where
  decide := decide
  finish := finish
  isComplete := fun explorer => explorer.tree.isComplete
  trace := trace
  estimate := estimate

end DepthFirst

end ScheduleSearch
