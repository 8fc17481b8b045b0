import ScheduleSearch.Cooperative.Machine

/-!
# What a thread of a program has still to do

A program is cooperative if its threads enter, leave and wait on locks through mutexes and their
guards only.  The code that a thread of such a program has still to run is of one of a few
forms: at most one primitive that concerns a lock is half done, and it comes first.  The first
task tells which event the thread reports by its next step.
-/

namespace ScheduleSearch

/-- The action neither enters, leaves nor waits on a lock. -/
def Action.isQuiet : Action → Bool
  | .enter _ => false
  | .leave _ => false
  | .wait .. => false
  | _ => true

/-- The event neither enters, leaves nor waits on a lock. -/
def Event.isQuiet : Event → Bool
  | .act action => action.isQuiet
  | _ => true

/-- The operation uses a primitive, or reports an action for which no primitive is needed. -/
def Operation.isCooperative : Operation → Bool
  | .report action => action.isQuiet
  | _ => true

mutual

/-- All operations of the instruction are cooperative. -/
def Instruction.isCooperative : Instruction → Bool
  | .branch _ body => allCooperative body
  | .loop _ body => allCooperative body
  | .times _ body => allCooperative body
  | .use operation => operation.isCooperative
  | _ => true

/-- All operations of the instructions are cooperative. -/
def allCooperative : List Instruction → Bool
  | [] => true
  | instruction :: rest => instruction.isCooperative && allCooperative rest

end

/-- Locks are entered, left and waited on through mutexes and their guards only. -/
def Program.isCooperative (program : Program) : Bool :=
  program.lists.all fun entry => allCooperative entry.2

theorem Program.allCooperative_instructions {program : Program}
    (cooperative : program.isCooperative = true) (key : String) :
    allCooperative (program.instructions key) = true := by
  unfold instructions
  cases found : program.lists.find? fun entry => entry.1 == key with
  | none => rfl
  | some entry => exact List.all_eq_true.1 cooperative entry (List.mem_of_find?_eq_some found)

/-- The task neither concerns a lock nor leads to one that does but for those of a primitive. -/
def Task.isQuiet : Task → Bool
  | .run instruction => instruction.isCooperative
  | .round _ body _ => allCooperative body
  | .again _ body => allCooperative body
  | .act action => action.isQuiet
  | .tryLock .. => false
  | .drop _ => false
  | .beginWait .. => false
  | .relock _ => false
  | _ => true

/-- No primitive that concerns a lock is half done. -/
def Quiet (code : List Task) : Prop := ∀ task ∈ code, task.isQuiet = true

variable {guards : List Nat} {code rest : List Task} {task : Task} {mutex : Nat}

theorem quiet_nil : Quiet [] := nofun

theorem quiet_cons : Quiet (task :: rest) ↔ task.isQuiet = true ∧ Quiet rest :=
  List.forall_mem_cons

theorem Quiet.cons (quiet : Quiet rest) (own : task.isQuiet = true) : Quiet (task :: rest) :=
  quiet_cons.2 ⟨own, quiet⟩

/-- The instructions of a cooperative body may be put before quiet code. -/
theorem Quiet.run_append (quiet : Quiet rest) {body : List Instruction}
    (cooperative : allCooperative body = true) : Quiet (body.map .run ++ rest) := by
  induction body with
  | nil => exact quiet
  | cons instruction others inductionHypothesis =>
      rw [allCooperative, Bool.and_eq_true] at cooperative
      exact (inductionHypothesis cooperative.2).cons cooperative.1

/-- A primitive that concerns a lock comes first at most, and is not begun. -/
inductive Opening (guards : List Nat) : List Task → Prop
  | quiet {code : List Task} (quiet : Quiet code) : Opening guards code
  | lock {mutex : Nat} {site : Site} {rest : List Task} (quiet : Quiet rest) :
      Opening guards
        (.act (.yield site) :: .act (.enter (Machine.lockOf mutex)) :: .tryLock mutex site :: rest)
  | drop {mutex : Nat} {rest : List Task} (held : mutex ∈ guards) (quiet : Quiet rest) :
      Opening guards (.drop mutex :: rest)
  | wait {mutex : Nat} {timed : Bool} {operation : Operation} {rest : List Task}
      (held : mutex ∈ guards) (quiet : Quiet rest) :
      Opening guards (.beginWait mutex timed operation :: rest)

/-- The forms that the code of a strand takes which holds the given guards. -/
inductive Planned (guards : List Nat) : List Task → Prop
  | opening {code : List Task} (opening : Opening guards code) : Planned guards code
  | enter {mutex : Nat} {site : Site} {rest : List Task} (quiet : Quiet rest) :
      Planned guards (.act (.enter (Machine.lockOf mutex)) :: .tryLock mutex site :: rest)
  | tryLock {mutex : Nat} {site : Site} {rest : List Task} (quiet : Quiet rest) :
      Planned guards (.tryLock mutex site :: rest)
  | wait {mutex : Nat} {timed : Bool} {operation : Operation} {rest : List Task}
      (held : mutex ∈ guards) (quiet : Quiet rest) :
      Planned guards
        (.act (.wait (Machine.lockOf mutex) timed) :: .relock mutex :: .endWait operation :: rest)
  | relock {mutex : Nat} {operation : Operation} {rest : List Task} (held : mutex ∈ guards)
      (quiet : Quiet rest) : Planned guards (.relock mutex :: .endWait operation :: rest)

theorem Quiet.planned (quiet : Quiet code) : Planned guards code :=
  .opening (.quiet quiet)

/-- The event that a strand reports by carrying out a task. -/
def Task.event? : Task → Option Event
  | .run (.use (.interrupted clear)) => some (.readInterrupt clear)
  | .run (.use (.spawn ..)) => some .announce
  | .act action => some (.act action)
  | .drop mutex => some (.act (.leave (Machine.lockOf mutex)))
  | .beginWait .. => some (.readInterrupt true)
  | .endWait _ => some (.readInterrupt true)
  | _ => none

/-- The task is to take the data lock of the mutex again. -/
def Task.retakes (task : Task) (mutex : Nat) : Bool :=
  match task with
  | .relock awaited => awaited == mutex
  | _ => false

/-- One if the task is to try the data lock of the mutex. -/
def Task.tries (task : Task) (mutex : Nat) : Nat :=
  match task with
  | .tryLock tried _ => if tried = mutex then 1 else 0
  | _ => 0

namespace Strand

/-- The event that a strand with the turn reports by its next step, if it reports one. -/
def event? (strand : Strand) : Option Event :=
  match strand.phase with
  | .unstarted => some (.bind strand.host)
  | .active =>
      match strand.code, strand.guards with
      | task :: _, _ => task.event?
      | [], mutex :: _ => some (.act (.leave (Machine.lockOf mutex)))
      | [], [] => some .exit
  | .waiting => none
  | .ended => none

theorem event?_of_task {strand : Strand} (active : strand.phase = .active)
    (code : strand.code = task :: rest) : strand.event? = task.event? := by
  rw [event?, active, code]

/-- A strand that reports nothing reports no given event. -/
theorem event?_ne_of_silent {strand : Strand} (silent : strand.event? = none) (event : Event) :
    strand.event? ≠ some event := by
  rw [silent]
  exact (Option.some_ne_none event).symm

/-- A strand that reports one event reports no other. -/
theorem event?_ne_of_reports {strand : Strand} {event other : Event}
    (reports : strand.event? = some event) (different : event ≠ other) :
    strand.event? ≠ some other := by
  rw [reports]
  exact mt Option.some.inj different

theorem underway_of_active {strand : Strand} (active : strand.phase = .active) :
    strand.phase ≠ .unstarted ∧ strand.phase ≠ .ended := by
  rw [active]
  decide

theorem underway_of_waiting {strand : Strand} (waiting : strand.phase = .waiting) :
    strand.phase ≠ .unstarted ∧ strand.phase ≠ .ended := by
  rw [waiting]
  decide

/-- The strand is inside a wait on the mutex: it gave up the data lock, which it has still to
take again. -/
def isInsideWait (strand : Strand) (mutex : Nat) : Bool :=
  strand.code.any (·.retakes mutex)

/-- The strand has a guard of the mutex and is not inside a wait through it. -/
def Holds (strand : Strand) (mutex : Nat) : Prop :=
  mutex ∈ strand.guards ∧ strand.isInsideWait mutex = false

instance (strand : Strand) (mutex : Nat) : Decidable (strand.Holds mutex) :=
  inferInstanceAs (Decidable (_ ∧ _))

/-- How often the strand entered the monitor of the mutex without leaving it: once for each of
its guards, and once more if it has just entered and not yet tried the data lock. -/
def entered (strand : Strand) (mutex : Nat) : Nat :=
  strand.guards.count mutex + strand.code.head?.elim 0 (·.tries mutex)

/-- The strand has entered the monitor of the mutex and has no guard of it, or has still to take
the data lock again. -/
def Wants (strand : Strand) (mutex : Nat) : Prop :=
  (∃ site rest, strand.code = .tryLock mutex site :: rest ∧ mutex ∉ strand.guards) ∨
    ∃ rest, strand.code = .relock mutex :: rest

/-- The strand is about to give up a monitor and wait. -/
def AboutToWait (strand : Strand) : Prop :=
  ∃ lock timed rest, strand.code = .act (.wait lock timed) :: rest

end Strand

theorem any_retakes_of_quiet (quiet : Quiet code) (mutex : Nat) :
    code.any (·.retakes mutex) = false := by
  rw [List.any_eq_false]
  intro task member
  have calm := quiet task member
  cases task <;> first | exact Bool.false_ne_true | cases calm

variable {strand : Strand}

theorem head_tries_of_quiet (quiet : Quiet code) (mutex : Nat) :
    code.head?.elim 0 (·.tries mutex) = 0 := by
  cases code with
  | nil => rfl
  | cons task rest =>
      have calm := (quiet_cons.1 quiet).1
      cases task <;> first | rfl | cases calm

theorem Opening.isInsideWait (opening : Opening guards strand.code) (mutex : Nat) :
    strand.isInsideWait mutex = false := by
  rw [Strand.isInsideWait]
  generalize strand.code = code at opening
  cases opening with
  | quiet quiet => exact any_retakes_of_quiet quiet mutex
  | lock quiet => exact any_retakes_of_quiet quiet mutex
  | drop held quiet => exact any_retakes_of_quiet quiet mutex
  | wait held quiet => exact any_retakes_of_quiet quiet mutex

theorem Opening.entered (opening : Opening guards strand.code) (mutex : Nat) :
    strand.entered mutex = strand.guards.count mutex := by
  rw [Strand.entered]
  generalize strand.code = code at opening
  cases opening with
  | quiet quiet => rw [head_tries_of_quiet quiet, Nat.add_zero]
  | lock quiet => rfl
  | drop held quiet => rfl
  | wait held quiet => rfl

theorem Opening.not_aboutToWait (opening : Opening guards strand.code) :
    ¬ strand.AboutToWait := by
  rintro ⟨lock, timed, rest, code⟩
  rw [code] at opening
  cases opening with
  | quiet quiet => cases (quiet_cons.1 quiet).1

theorem Quiet.entered (quiet : Quiet strand.code) (mutex : Nat) :
    strand.entered mutex = strand.guards.count mutex :=
  Opening.entered (.quiet quiet : Opening [] strand.code) mutex

theorem Quiet.not_aboutToWait (quiet : Quiet strand.code) : ¬ strand.AboutToWait :=
  Opening.not_aboutToWait (.quiet quiet : Opening [] strand.code)

end ScheduleSearch
