import ScheduleSearch.Decision.Source

/-!
# The tree of decisions

The decisions met by all executions so far form a tree: a node is a place where a decision is
taken or an execution ends, and it has one child for each thread that was offered there.  The
nodes are numbered in the order in which they come up, so a node is younger than its parent.

A node is *untested* until an execution arrives at it, and *completely tested* once every
way on from it was tried, which is passed on towards the root as soon as it holds.
-/

namespace ScheduleSearch

/-- How far the continuations of a node were tried. -/
inductive NodeStatus where
  /-- No execution arrived there. -/
  | untested
  /-- Some continuation is left to try. -/
  | partlyTested
  /-- Every continuation was tried. -/
  | completelyTested
  deriving DecidableEq, Repr, Inhabited

def NodeStatus.word : NodeStatus → String
  | untested => "UNTESTED"
  | partlyTested => "PARTIALLY_TESTED"
  | completelyTested => "COMPLETELY_TESTED"

/-- One node of the tree. -/
structure Node where
  /-- The node whose decision leads here; the root has none. -/
  parent : Option Nat
  /-- The thread whose choice leads here. -/
  chosen : Option ThreadId
  /-- What was asked on the first visit. -/
  question : Option Question
  /-- One child for each offered thread, in the same order. -/
  children : List Nat
  /-- How far the node was tried. -/
  status : NodeStatus
  deriving DecidableEq, Repr, Inhabited

/-- A node at which no execution arrived. -/
def Node.fresh (parent : Option Nat) (chosen : Option ThreadId) : Node where
  parent := parent
  chosen := chosen
  question := none
  children := []
  status := .untested

/-- The threads offered on the first visit. -/
def Node.options (node : Node) : List ThreadId :=
  node.question.elim [] (·.options)

/-- Whether every continuation of the node was tried. -/
def Node.isComplete (node : Node) : Bool :=
  node.status == .completelyTested

/-- The nodes by number; the root has number zero. -/
structure DecisionTree where
  nodes : Array Node
  deriving DecidableEq, Repr, Inhabited

namespace DecisionTree

def root : Nat := 0

/-- A tree of which only the root is known. -/
def start : DecisionTree := ⟨#[Node.fresh none none]⟩

def node (tree : DecisionTree) (id : Nat) : Node :=
  tree.nodes.getD id (Node.fresh none none)

/-- The number of nodes. -/
def size (tree : DecisionTree) : Nat :=
  tree.nodes.size

/-- Whether every execution was tried. -/
def isComplete (tree : DecisionTree) : Bool :=
  (tree.node root).isComplete

/-- The numbers from the root down to a node.  A node has fewer ancestors than its number
says, so the climb needs no more steps. -/
def climbFrom (tree : DecisionTree) : Nat → Nat → List Nat → List Nat
  | 0, id, below => id :: below
  | steps + 1, id, below =>
      match (tree.node id).parent with
      | some parent => tree.climbFrom steps parent (id :: below)
      | none => id :: below

/-- The numbers of the nodes from the root down to `id`. -/
def path (tree : DecisionTree) (id : Nat) : List Nat :=
  tree.climbFrom id id []

/-- The number of decisions that lead to a node. -/
def depth (tree : DecisionTree) (id : Nat) : Nat :=
  (tree.path id).length - 1

def childrenComplete (tree : DecisionTree) (id : Nat) : Bool :=
  (tree.node id).children.all fun child => (tree.node child).isComplete

def mark (tree : DecisionTree) (id : Nat) (status : NodeStatus) : DecisionTree :=
  ⟨tree.nodes.modify id fun node => { node with status := status }⟩

/-- Marks a node as completely tested if all its children are, and goes on with its parent. -/
def completeFrom : Nat → DecisionTree → Nat → DecisionTree
  | steps, tree, id =>
      if tree.childrenComplete id then
        let marked := tree.mark id .completelyTested
        match steps, (tree.node id).parent with
        | steps + 1, some parent => completeFrom steps marked parent
        | _, _ => marked
      else tree

/-- Marks a node as completely tested, and its ancestors as far as all their children are. -/
def complete (tree : DecisionTree) (id : Nat) : DecisionTree :=
  completeFrom id tree id

/-- The first visit of a node: what was asked is recorded, and each offered thread gets a
child of its own. -/
def expand (tree : DecisionTree) (id : Nat) (question : Question) : DecisionTree :=
  let children := List.range' tree.size question.options.length
  let grown := tree.nodes.modify id fun node =>
    { node with question := some question, children := children, status := .partlyTested }
  ⟨grown ++ question.options.map fun option => Node.fresh (some id) (some option)⟩

/-- An execution arrives at a node.  The first one records what is asked there, and a node
where nothing is offered ends an execution and is complete at once.  Later ones must ask the
same again. -/
def visit (tree : DecisionTree) (id : Nat) (question : Question) :
    Except Fault DecisionTree :=
  let node := tree.node id
  if node.status = .untested then
    let expanded := tree.expand id question
    .ok (if question.options.isEmpty then expanded.complete id else expanded)
  else if node.question.any fun recorded => recorded.same question then
    .ok tree
  else
    .error <| .nondeterministicExecution (tree.depth id)
      (node.question.getD ⟨"", []⟩).text question.text

/-- The first child that is not completely tested, with the position of its thread among the
options. -/
def firstOpenChild (tree : DecisionTree) (id : Nat) : Option (Nat × Nat) :=
  let children := (tree.node id).children
  (children.findIdx? fun child => !(tree.node child).isComplete).bind fun position =>
    (children[position]?).map fun child => (position, child)

end DecisionTree

end ScheduleSearch
