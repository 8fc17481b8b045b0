/-!
# Thread identities

A logical thread is known by its place in the spawn tree: the test itself runs on the root,
and every other thread is the child with some number of the thread that spawned it.  The
numbers on the way down from the root are the thread's *lineage*.  Two identities are of the
same thread when their lineages agree; the name a thread is shown under takes no part in
that, nor in the order of threads.
-/

namespace ScheduleSearch

/-- A thread's place in the spawn tree, together with the name it is shown under. -/
inductive ThreadId where
  /-- The thread on which a test starts. -/
  | root
  /-- The child with number `seq` of the thread `parent`. -/
  | spawned (parent : ThreadId) (seq : Nat) (name : String)
  deriving DecidableEq, Repr, Inhabited

namespace ThreadId

def rootName : String := "main"

def name : ThreadId → String
  | root => rootName
  | spawned _ _ name => name

/-- The number of the thread among its parent's children. -/
def seq : ThreadId → Nat
  | root => 0
  | spawned _ seq _ => seq

/-- The thread that spawned this one. -/
def parent? : ThreadId → Option ThreadId
  | root => none
  | spawned parent _ _ => some parent

/-- Whether this is the thread on which the test started. -/
def isRoot : ThreadId → Bool
  | root => true
  | spawned .. => false

/-- The child with number `seq` of `parent`, named after its parent and its number. -/
def child (parent : ThreadId) (seq : Nat) : ThreadId :=
  spawned parent seq (parent.name ++ "." ++ toString seq)

/-- The form in which a thread is shown to a developer. -/
def debugName (thread : ThreadId) : String :=
  "ThreadId(" ++ thread.name ++ ")"

/-- The number of ancestors of the thread. -/
def depth : ThreadId → Nat
  | root => 0
  | spawned parent _ _ => parent.depth + 1

/-- The numbers of the thread and its ancestors, the root's first. -/
def lineage : ThreadId → List Nat
  | root => [0]
  | spawned parent seq _ => parent.lineage ++ [seq]

/-- The ancestor `levels` generations up, or the root where there are not so many. -/
def ancestor : ThreadId → Nat → ThreadId
  | thread, 0 => thread
  | root, _ + 1 => root
  | spawned parent _ _, levels + 1 => parent.ancestor levels

/-- Whether two identities are of the same thread.

`shared` may report that both are one and the same node of the spawn tree, which spares the
comparison of their ancestors. -/
def sameSharing (shared : ThreadId → ThreadId → Bool) : ThreadId → ThreadId → Bool
  | root, root => true
  | root, spawned .. => false
  | spawned .., root => false
  | spawned parent seq name, spawned parent' seq' name' =>
      shared (spawned parent seq name) (spawned parent' seq' name') ||
        (seq == seq' && sameSharing shared parent parent')

def same (left right : ThreadId) : Bool :=
  sameSharing (fun _ _ => false) left right

/-- Climbs from two threads of equal depth towards the root.  The verdict is the comparison
at the generation closest to the root at which the two differ, and `verdict` where they
differ nowhere; the climb stops at a node that both share. -/
def climb (shared : ThreadId → ThreadId → Bool) (verdict : Ordering) :
    ThreadId → ThreadId → Ordering
  | spawned parent seq name, spawned parent' seq' name' =>
      if shared (spawned parent seq name) (spawned parent' seq' name') then verdict
      else climb shared (if seq = seq' then verdict else compare seq seq') parent parent'
  | _, _ => verdict

/-- The order of threads: the deeper thread is lifted to the depth of the other, the two are
compared on the way to the root, and of a thread and its descendant the thread comes first. -/
def compareSharing (shared : ThreadId → ThreadId → Bool) (left right : ThreadId) : Ordering :=
  let common := min left.depth right.depth
  (climb shared .eq (left.ancestor (left.depth - common))
    (right.ancestor (right.depth - common))).then (compare left.depth right.depth)

instance : Ord ThreadId := ⟨compareSharing (fun _ _ => false)⟩

/-- The words a thread contributes to a hash: whether it has a parent, the parent's words,
and its own number. -/
def hashWords : ThreadId → List Nat
  | root => [0, 0]
  | spawned parent seq _ => 1 :: parent.hashWords ++ [seq]

end ThreadId

/-- Whether two lists name the same threads in the same order. -/
def sameThreads : List ThreadId → List ThreadId → Bool
  | [], [] => true
  | thread :: rest, thread' :: rest' => thread.same thread' && sameThreads rest rest'
  | _, _ => false

end ScheduleSearch
