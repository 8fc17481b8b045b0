import ScheduleSearch.Table
import ScheduleSearch.Thread.Order

/-!
# Joins

For each thread that others wait for, the set of the threads that do.
-/

namespace ScheduleSearch

/-- For each joined thread the threads that wait for its exit. -/
structure Joins where
  table : Table ThreadId (KeySet ThreadId)
  deriving DecidableEq, Inhabited

namespace Joins

/-- Nobody waits for anybody. -/
def empty : Joins := ⟨Table.empty⟩

def add (joins : Joins) (joinee joiner : ThreadId) : Joins :=
  ⟨joins.table.insert joinee (((joins.table.get? joinee).getD Table.empty).add joiner)⟩

/-- The threads that wait for `joinee`, in the order of threads. -/
def joinersOf (joins : Joins) (joinee : ThreadId) : List ThreadId :=
  ((joins.table.get? joinee).getD Table.empty).keys

/-- `joinee` reached its exit: nobody waits for it any longer. -/
def release (joins : Joins) (joinee : ThreadId) : List ThreadId × Joins :=
  (joins.joinersOf joinee, ⟨joins.table.erase joinee⟩)

def isJoining (joins : Joins) (joiner : ThreadId) : Bool :=
  joins.table.values.any (fun joiners => joiners.contains joiner)

/-- Whether nobody waits for anybody. -/
def isEmpty (joins : Joins) : Bool :=
  joins.table.isEmpty

end Joins

end ScheduleSearch
