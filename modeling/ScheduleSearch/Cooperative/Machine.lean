import ScheduleSearch.Cooperative.Program
import ScheduleSearch.Gate.Basic

/-!
# Executing a program

A `Machine` is an execution of a program over a gate.  Every thread of the program is a
*strand*: the code it has still to run, its accumulator and the guards it holds.  At most one
strand has the turn, and a step of the machine is a step of that strand: it makes at most one
call of the gate, after which it goes on, or waits while the running thread of the model has
the turn, or unwinds because the execution failed.

A mutex has its value, guarded by a data lock, beside the monitor of the model.  Locking
enters the monitor first and then tries the data lock; dropping a guard frees the data lock
first, since the next owner may run as soon as the monitor is left.  A strand that unwinds
frees its data locks and reports nothing.
-/

namespace ScheduleSearch

structure LogEntry where
  thread : String
  word : String
  result : Option String
  deriving DecidableEq, Repr, Inhabited

def LogEntry.text (entry : LogEntry) : String :=
  entry.thread ++ " " ++ entry.word ++ (entry.result.elim "" fun result => " -> " ++ result)

def logText (log : List LogEntry) : String :=
  "; ".intercalate (log.map LogEntry.text)

/-- Something a strand has still to do. -/
inductive Task where
  /-- An instruction. -/
  | run (instruction : Instruction)
  /-- The next round of a loop of which `rounds` were made. -/
  | round (condition : Condition) (body : List Instruction) (rounds : Nat)
  /-- The rest of a repetition. -/
  | again (count : Nat) (body : List Instruction)
  /-- An action to be reported to the gate. -/
  | act (action : Action)
  /-- The data lock of a mutex to be tried, after its monitor was entered. -/
  | tryLock (mutex : Nat) (site : Site)
  /-- A guard to be dropped. -/
  | drop (mutex : Nat)
  /-- A wait to be begun, unless the thread is interrupted. -/
  | beginWait (mutex : Nat) (timed : Bool) (operation : Operation)
  /-- The data lock of a mutex to be taken again after a wait; if it is taken, the host thread
  blocks with nobody to wake it. -/
  | relock (mutex : Nat)
  /-- The interrupt flag to be read at the end of a wait. -/
  | endWait (operation : Operation)
  /-- The handle of a spawned thread to be kept. -/
  | keep (key : String) (child : ThreadId)
  /-- The result of a joined thread to be taken. -/
  | takeResult (joinee : ThreadId) (operation : Operation)
  /-- The result of a thread to be taken if it is there, and its handle to be put back. -/
  | takeTimed (key : String) (joinee : ThreadId) (operation : Operation)
  /-- An operation to be logged. -/
  | log (operation : Operation) (result : Option String)

/-- What a strand is doing. -/
inductive Phase where
  /-- It has not reported its start. -/
  | unstarted
  /-- It runs its code. -/
  | active
  /-- It waits in a call for its turn. -/
  | waiting
  /-- It has nothing left to do. -/
  | ended
  deriving DecidableEq, Repr, Inhabited

/-- One thread of a program in execution. -/
structure Strand where
  /-- The host thread that carries it. -/
  host : Host
  phase : Phase
  /-- What it has still to do. -/
  code : List Task
  acc : Int64
  /-- The mutexes of which it holds a guard, the last one locked first. -/
  guards : List Nat

/-- A mutex in execution. -/
structure Cell where
  value : Int64
  /-- Whether the data lock is taken. -/
  taken : Bool
  deriving DecidableEq, Repr, Inhabited

/-- A mutex that nobody has locked. -/
def Cell.ofValue (value : Int64) : Cell := ⟨value, false⟩

/-- Changes the value of a mutex, for whoever has it to itself. -/
def Cell.modify (cell : Cell) (change : Int64 → Int64) : Cell :=
  { cell with value := change cell.value }

/-- An execution of a program. -/
structure Machine (σ : Type) where
  program : Program
  /-- The number of the execution. -/
  run : Nat
  gate : Gate σ
  strands : Table ThreadId Strand
  /-- The strand that makes the next step. -/
  turn : Option ThreadId
  shared : Array Int64
  cells : Array Cell
  /-- The handles that can be joined. -/
  handles : Table String ThreadId
  /-- The thread last spawned under each key. -/
  spawned : Table String ThreadId
  /-- The results that nobody took. -/
  results : Table ThreadId Int64
  log : Array LogEntry

namespace Machine

variable {σ : Type}

/-- The lock that stands for a mutex in the model. -/
def lockOf (mutex : Nat) : LockId := ⟨mutex⟩

/-- The host thread of the root. -/
def rootHost : Host := 0

/-- An execution in which the root has the first turn. -/
def start (program : Program) (run : Nat) (source : σ) (maxDecisions : Nat) : Machine σ where
  program := program
  run := run
  gate := ((Gate.fresh source maxDecisions).begin rootHost).gate
  strands := Table.empty.insert .root
    { host := rootHost
      phase := .active
      code := (program.instructions ThreadId.rootName).map .run
      acc := 0
      guards := [] }
  turn := some .root
  shared := program.shared.toArray
  cells := (program.mutexes.map Cell.ofValue).toArray
  handles := Table.empty
  spawned := Table.empty
  results := Table.empty
  log := #[]

def put (machine : Machine σ) (me : ThreadId) (strand : Strand) : Machine σ :=
  { machine with strands := machine.strands.insert me strand }

/-- Gives the turn to the running thread of the model, or to nobody after a failure. -/
def handOver (machine : Machine σ) : Machine σ :=
  { machine with
    turn := if machine.gate.failure.isSome then none else machine.gate.model.running? }

def note (machine : Machine σ) (me : ThreadId) (operation : Operation)
    (result : Option String) : Machine σ :=
  { machine with log := machine.log.push ⟨me.name, operation.logWord, result⟩ }

def isTaken (machine : Machine σ) (mutex : Nat) : Bool :=
  (machine.cells[mutex]?).any (·.taken)

def setTaken (machine : Machine σ) (taken : Bool) (mutex : Nat) : Machine σ :=
  { machine with cells := machine.cells.modify mutex fun cell => { cell with taken := taken } }

def valueOf (machine : Machine σ) (mutex : Nat) : Int64 :=
  (machine.cells[mutex]?).elim 0 (·.value)

/-- The strand frees its data locks, is over, and gives up its turn. -/
def unwind (machine : Machine σ) (me : ThreadId) (strand : Strand) : Machine σ :=
  let ended := machine.put me { strand with phase := .ended, code := [], guards := [] }
  (strand.guards.foldl (fun machine mutex => machine.setTaken false mutex) ended).handOver

/-- The strand panics.  The execution fails, unless it unwinds because it has failed. -/
def panicked (machine : Machine σ) (me : ThreadId) (strand : Strand) (payload : Payload) :
    Machine σ :=
  if payload.isAbort then machine.unwind me strand
  else
    { machine with
      gate := (machine.gate.abort (.testPanicked me.name payload.message)).gate }.unwind me strand

/-- What becomes of a strand whose call did not succeed. -/
def halted (machine : Machine σ) (me : ThreadId) (strand : Strand) : Halt → Machine σ
  | .fault fault => machine.panicked me strand (.aborted fault)
  | .violation violation => machine.panicked me strand (.literal violation.message)

/-- Goes on after a call that returned, with the value it returned. -/
def after {α : Type} (machine : Machine σ) (me : ThreadId) (strand : Strand)
    (served : Served σ α) (proceed : Machine σ → α → Machine σ) : Machine σ :=
  let machine := { machine with gate := served.gate }
  match served.answer with
  | .returned (.ok value) => proceed machine value
  | .returned (.error halt) => machine.halted me strand halt
  | .asleep => (machine.put me { strand with phase := .waiting }).handOver

def truth (value : Bool) : String :=
  if value then "true" else "false"

/-- The accumulator of a strand set to a truth value. -/
def flagged (strand : Strand) (value : Bool) : Strand :=
  { strand with acc := if value then 1 else 0 }

/-- The text of an accumulator. -/
def number (value : Int64) : String :=
  toString value.toInt

/-- The tasks of an operation that needs the guard of a mutex; without the guard the
operation only says so. -/
def guarded (strand : Strand) (mutex : Nat) (operation : Operation) (tasks : List Task) :
    List Task :=
  if strand.guards.contains mutex then tasks else [.log operation (some "not held")]

/-- Announces a child that will run the list `key`, and plans to let it take over. -/
def spawn [DecisionSource σ] (machine : Machine σ) (me : ThreadId) (strand : Strand)
    (rest : List Task) (key : String) (site : Site) : Machine σ :=
  machine.after me strand (machine.gate.announce strand.host) fun machine child =>
    let newcomer : Strand :=
      { host := machine.strands.size
        phase := .unstarted
        code := (machine.program.instructions key).map .run
        acc := 0
        guards := [] }
    (machine.put child newcomer).put me
      { strand with
        code := .act (.yield site) :: .keep key child ::
          .log (.spawn key site) (some child.name) :: rest }

/-- Begins an operation.  What it does in its later steps is put before the rest of the
code. -/
def begin [DecisionSource σ] (machine : Machine σ) (me : ThreadId) (strand : Strand)
    (rest : List Task) (operation : Operation) : Machine σ :=
  let logged (result : Option String) : Task := .log operation result
  let plan (tasks : List Task) : Machine σ :=
    machine.put me { strand with code := tasks ++ rest }
  match operation with
  | .yield site => plan [.act (.yield site), logged none]
  | .park => plan [.act .park, logged none]
  | .report action => plan [.act action, logged none]
  | .current =>
      machine.after me strand (machine.gate.current strand.host) fun machine thread =>
        machine.put me
          { strand with
            code := logged (some (thread.name ++ " " ++ toString thread.depth)) :: rest }
  | .interrupted clear =>
      machine.after me strand (machine.gate.readInterrupt strand.host clear)
        fun machine isSet =>
          let read := flagged strand isSet
          machine.put me { read with code := logged (some (number read.acc)) :: rest }
  | .load index =>
      let value := machine.shared.getD index 0
      machine.put me { strand with acc := value, code := logged (some (number value)) :: rest }
  | .store index =>
      { machine with shared := machine.shared.setIfInBounds index strand.acc }.put me
        { strand with code := logged none :: rest }
  | .spawn key site => machine.spawn me strand rest key site
  | .join key =>
      match machine.handles.get? key with
      | none => plan [logged (some "no handle")]
      | some joinee =>
          { machine with handles := machine.handles.erase key }.put me
            { strand with
              code := .act (.join joinee false) :: .takeResult joinee operation :: rest }
  | .joinTimed key =>
      match machine.handles.get? key with
      | none => plan [logged (some "no handle")]
      | some joinee =>
          { machine with handles := machine.handles.erase key }.put me
            { strand with
              code := .act (.join joinee true) :: .takeTimed key joinee operation :: rest }
  | .finished key =>
      match machine.handles.get? key with
      | none => plan [logged (some "no handle")]
      | some joinee => plan [logged (some (truth (machine.results.contains joinee)))]
  | .unpark key =>
      match machine.spawned.get? key with
      | none => plan [logged (some "no thread")]
      | some thread => plan [.act (.unpark thread), logged none]
  | .interrupt key =>
      match machine.spawned.get? key with
      | none => plan [logged (some "no thread")]
      | some thread => plan [.act (.interrupt thread), logged none]
  | .lock mutex site =>
      plan [.act (.yield site), .act (.enter (lockOf mutex)), .tryLock mutex site, logged none]
  | .unlock mutex => plan (guarded strand mutex operation [.drop mutex, logged none])
  | .wait mutex timed => plan (guarded strand mutex operation [.beginWait mutex timed operation])
  | .notify mutex =>
      plan (guarded strand mutex operation [.act (.notify (lockOf mutex)), logged none])
  | .notifyAll mutex =>
      plan (guarded strand mutex operation [.act (.notifyAll (lockOf mutex)), logged none])
  | .get mutex =>
      if strand.guards.contains mutex then
        let value := machine.valueOf mutex
        machine.put me { strand with acc := value, code := logged (some (number value)) :: rest }
      else plan [logged (some "not held")]
  | .set mutex =>
      if strand.guards.contains mutex then
        { machine with
          cells := machine.cells.modify mutex fun cell => cell.modify fun _ => strand.acc }.put
            me { strand with code := logged none :: rest }
      else plan [logged (some "not held")]
  | .abort fault =>
      { machine with gate := (machine.gate.abort fault).gate }.put me
        { strand with code := logged none :: rest }

/-! ## Instructions and tasks -/

def execute [DecisionSource σ] (machine : Machine σ) (me : ThreadId) (strand : Strand)
    (rest : List Task) : Instruction → Machine σ
  | .const value => machine.put me { strand with acc := value, code := rest }
  | .add value => machine.put me { strand with acc := strand.acc + value, code := rest }
  | .branch condition body =>
      machine.put me
        { strand with
          code := if condition.holds strand.acc machine.run then body.map .run ++ rest else rest }
  | .loop condition body => machine.put me { strand with code := .round condition body 0 :: rest }
  | .times count body => machine.put me { strand with code := .again count body :: rest }
  | .check expected text =>
      if strand.acc = expected then machine.put me { strand with code := rest }
      else
        machine.panicked me strand
          (.text (text ++ ": " ++ number strand.acc ++ " != " ++ number expected))
  | .panic payload => machine.panicked me strand payload
  | .use operation => machine.begin me strand rest operation

/-- The fault of a thread that locks a mutex of which it holds a guard. -/
def lockedTwice (mutex : Nat) (site : Site) (name : String) : Fault :=
  .testPanicked name
    ((lockOf mutex).text ++ " locked twice by the same thread at " ++ site.text)

/-- Tries the data lock of a mutex whose monitor was entered.  It is taken already only if
the thread itself holds a guard. -/
def tryLock (machine : Machine σ) (me : ThreadId) (strand : Strand) (rest : List Task)
    (mutex : Nat) (site : Site) : Machine σ :=
  if machine.isTaken mutex then
    let name :=
      match (machine.gate.current strand.host).answer with
      | .returned (.ok thread) => thread.name
      | _ => ""
    let fault := lockedTwice mutex site name
    { machine with gate := (machine.gate.abort fault).gate }.panicked me strand (.aborted fault)
  else
    (machine.setTaken true mutex).put me
      { strand with code := rest, guards := mutex :: strand.guards }

def carryOut [DecisionSource σ] (machine : Machine σ) (me : ThreadId) (strand : Strand)
    (rest : List Task) : Task → Machine σ
  | .run instruction => machine.execute me strand rest instruction
  | .round condition body rounds =>
      if !condition.holds strand.acc machine.run then machine.put me { strand with code := rest }
      else if rounds < loopLimit then
        machine.put me
          { strand with code := body.map .run ++ .round condition body (rounds + 1) :: rest }
      else machine.panicked me strand (.literal "loop limit")
  | .again 0 _ => machine.put me { strand with code := rest }
  | .again (count + 1) body =>
      machine.put me { strand with code := body.map .run ++ .again count body :: rest }
  | .act action =>
      let going := { strand with code := rest }
      machine.after me going (machine.gate.act strand.host action) fun machine _ =>
        machine.put me going
  | .tryLock mutex site => machine.tryLock me strand rest mutex site
  | .drop mutex =>
      let dropped := { strand with code := rest, guards := strand.guards.erase mutex }
      let freed := machine.setTaken false mutex
      freed.after me dropped (freed.gate.act strand.host (.leave (lockOf mutex)))
        fun machine _ => machine.put me dropped
  | .beginWait mutex timed operation =>
      machine.after me strand (machine.gate.readInterrupt strand.host true)
        fun machine isSet =>
          if isSet then
            machine.put me { strand with code := .log operation (some (truth true)) :: rest }
          else
            (machine.setTaken false mutex).put me
              { strand with
                code := .act (.wait (lockOf mutex) timed) :: .relock mutex ::
                  .endWait operation :: rest }
  | .relock mutex =>
      if machine.isTaken mutex then { machine with turn := none }
      else (machine.setTaken true mutex).put me { strand with code := rest }
  | .endWait operation =>
      machine.after me strand (machine.gate.readInterrupt strand.host true)
        fun machine isSet =>
          machine.put me { strand with code := .log operation (some (truth isSet)) :: rest }
  | .keep key child =>
      { machine with
        handles := machine.handles.insert key child
        spawned := machine.spawned.insert key child }.put me { strand with code := rest }
  | .takeResult joinee operation =>
      match machine.results.get? joinee with
      | some value =>
          { machine with results := machine.results.erase joinee }.put me
            { strand with acc := value, code := .log operation (some (number value)) :: rest }
      | none =>
          machine.put me
            { strand with
              code := .log operation (some (joinee.name ++ " produced no result")) :: rest }
  | .takeTimed key joinee operation =>
      let machine := { machine with handles := machine.handles.insert key joinee }
      match machine.results.get? joinee with
      | some value =>
          { machine with results := machine.results.erase joinee }.put me
            { strand with acc := value, code := .log operation (some (number value)) :: rest }
      | none =>
          machine.put me { strand with code := .log operation (some "none") :: rest }
  | .log operation result => (machine.note me operation result).put me { strand with code := rest }

/-- Ends a strand that has nothing left to do.  The root waits for the end of the execution;
another thread leaves its result. -/
def conclude [DecisionSource σ] (machine : Machine σ) (me : ThreadId) (strand : Strand) :
    Machine σ :=
  let ended := machine.put me { strand with phase := .ended }
  if me.isRoot then { ended with gate := (ended.gate.finish strand.host).gate }.handOver
  else
    { ended with
      results := ended.results.insert me strand.acc
      gate := (ended.gate.exit strand.host).gate }.handOver

/-- One step of the strand that has the turn. -/
def step [DecisionSource σ] (machine : Machine σ) : Machine σ :=
  match machine.turn with
  | none => machine
  | some me =>
      match machine.strands.get? me with
      | none => { machine with turn := none }
      | some strand =>
          let active := { strand with phase := .active }
          match strand.phase with
          | .ended => { machine with turn := none }
          | .unstarted =>
              machine.after me active (machine.gate.started strand.host me) fun machine _ =>
                machine.put me active
          | .waiting =>
              machine.after me active
                { answer := machine.gate.awaitTurn me, ring := .nobody, gate := machine.gate }
                fun machine _ => machine.put me active
          | .active =>
              match strand.code, strand.guards with
              | task :: rest, _ => machine.carryOut me strand rest task
              | [], mutex :: _ => machine.carryOut me strand [] (.drop mutex)
              | [], [] => machine.conclude me strand

/-- At most the given number of steps, as long as some strand has the turn. -/
def steps [DecisionSource σ] : Nat → Machine σ → Machine σ
  | 0, machine => machine
  | count + 1, machine => if machine.turn.isNone then machine else steps count machine.step

end Machine

end ScheduleSearch
