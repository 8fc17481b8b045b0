import ScheduleSearch.Cooperative.Context
import ScheduleSearch.Scheduler.Event

/-!
# Programs over the cooperative primitives

A program gives each thread a list of instructions.  A thread has an accumulator and the
guards of the mutexes it holds; variables, mutexes and the handles of spawned threads are
shared.  The instructions that use a primitive are *operations*, and each of them is logged
when it is complete.
-/

namespace ScheduleSearch

/-- What a condition looks at. -/
inductive Operand where
  /-- The accumulator of the thread. -/
  | acc
  /-- The number of the execution. -/
  | run
  deriving DecidableEq, Repr, Inhabited

/-- How a condition compares. -/
inductive Relation where
  | equal
  | unequal
  | below
  deriving DecidableEq, Repr, Inhabited

/-- A condition of a branch or a loop. -/
structure Condition where
  operand : Operand
  relation : Relation
  value : Int
  deriving DecidableEq, Repr, Inhabited

/-- Whether a condition holds of an accumulator in the execution with the given number. -/
def Condition.holds (condition : Condition) (acc : Int64) (run : Nat) : Bool :=
  let left : Int :=
    match condition.operand with
    | .acc => acc.toInt
    | .run => run
  match condition.relation with
  | .equal => left == condition.value
  | .unequal => left != condition.value
  | .below => left < condition.value

/-- A use of a primitive. -/
inductive Operation where
  /-- Lets another thread take over. -/
  | yield (site : Site)
  /-- Tells the thread's name and depth. -/
  | current
  /-- Parks. -/
  | park
  /-- Reads the interrupt flag into the accumulator, clearing it or not. -/
  | interrupted (clear : Bool)
  /-- Reads a shared variable into the accumulator. -/
  | load (index : Nat)
  /-- Writes the accumulator to a shared variable. -/
  | store (index : Nat)
  /-- Spawns a thread that runs the list `key`, and keeps its handle under `key`. -/
  | spawn (key : String) (site : Site)
  /-- Joins the thread whose handle is kept under `key`; its value goes to the accumulator. -/
  | join (key : String)
  /-- The same with a timeout, after which the handle is put back. -/
  | joinTimed (key : String)
  /-- Asks whether the thread under `key` has a result that nobody took. -/
  | finished (key : String)
  /-- Unparks the thread last spawned under `key`. -/
  | unpark (key : String)
  /-- Interrupts the thread last spawned under `key`. -/
  | interrupt (key : String)
  /-- Locks a mutex and keeps the guard. -/
  | lock (mutex : Nat) (site : Site)
  /-- Drops the guard of a mutex. -/
  | unlock (mutex : Nat)
  /-- Waits for a signal on a mutex through its guard. -/
  | wait (mutex : Nat) (timed : Bool)
  /-- Sends a signal on a mutex through its guard. -/
  | notify (mutex : Nat)
  /-- Sends a signal to every waiter of a mutex through its guard. -/
  | notifyAll (mutex : Nat)
  /-- Reads the value of a mutex into the accumulator through its guard. -/
  | get (mutex : Nat)
  /-- Writes the accumulator to a mutex through its guard. -/
  | set (mutex : Nat)
  /-- Reports an action to the gate without any primitive. -/
  | report (action : Action)
  /-- Fails the execution.  The thread goes on until its next call. -/
  | abort (fault : Fault)
  deriving DecidableEq, Repr

/-- The word an action is logged as when it is reported without a primitive. -/
def Action.logWord : Action → String
  | yield _ => "m_yield"
  | enter _ => "m_enter"
  | leave _ => "m_exit"
  | wait .. => "m_wait"
  | notify _ => "m_notify"
  | notifyAll _ => "m_notify_all"
  | park => "t_park"
  | unpark _ => "t_unpark"
  | join .. => "t_join"
  | interrupt _ => "t_interrupt"

def Operation.logWord : Operation → String
  | yield _ => "yield"
  | current => "current"
  | park => "park"
  | interrupted true => "interrupted"
  | interrupted false => "is_interrupted"
  | load _ => "load"
  | store _ => "store"
  | spawn .. => "spawn"
  | join _ => "join"
  | joinTimed _ => "join_timeout"
  | finished _ => "finished"
  | unpark _ => "unpark"
  | interrupt _ => "interrupt"
  | lock .. => "lock"
  | unlock _ => "unlock"
  | wait _ false => "wait"
  | wait _ true => "wait_timeout"
  | notify _ => "notify_one"
  | notifyAll _ => "notify_all"
  | get _ => "get"
  | set _ => "set"
  | report action => action.logWord
  | abort _ => "abort"

inductive Instruction where
  /-- Sets the accumulator. -/
  | const (value : Int64)
  /-- Adds to the accumulator, modulo the word size. -/
  | add (value : Int64)
  /-- Runs the body if the condition holds. -/
  | branch (condition : Condition) (body : List Instruction)
  /-- Runs the body as long as the condition holds. -/
  | loop (condition : Condition) (body : List Instruction)
  /-- Runs the body a number of times. -/
  | times (count : Nat) (body : List Instruction)
  /-- Panics unless the accumulator has the expected value. -/
  | check (expected : Int64) (text : String)
  /-- Panics. -/
  | panic (payload : Payload)
  /-- Uses a primitive. -/
  | use (operation : Operation)

/-- The number of rounds after which a loop panics. -/
def loopLimit : Nat := 99

mutual

/-- A number of steps that no thread exceeds in carrying out an instruction, dropping guards
included. -/
def Instruction.cost : Instruction → Nat
  | .const _ | .add _ | .check .. | .panic _ => 1
  | .branch _ body => 1 + listCost body
  | .loop _ body => 2 + (loopLimit + 1) * (1 + listCost body)
  | .times count body => 2 + count * (1 + listCost body)
  | .use _ => 12

/-- The sum of the costs of a list of instructions. -/
def listCost : List Instruction → Nat
  | [] => 0
  | instruction :: rest => instruction.cost + listCost rest

end

/-- A program: the instruction list of each thread by key, the root's among them, and the
initial values of what is shared. -/
structure Program where
  lists : List (String × List Instruction)
  mutexes : List Int64
  shared : List Int64

namespace Program

def instructions (program : Program) (key : String) : List Instruction :=
  ((program.lists.find? fun entry => entry.1 == key).map (·.2)).getD []

/-- A number of steps that no single thread exceeds. -/
def threadCost (program : Program) : Nat :=
  6 + ((program.lists.map fun entry => listCost entry.2).foldl max 0)

end Program

end ScheduleSearch
