import ScheduleSearch.Proofs.Cooperative.Plans

/-!
# Moves of a thread of a program

A step of a thread of a cooperative program is one of a few moves from one form of code to the
next.  Each of them says which event the thread reports and which data locks it takes or frees,
and what follows from it for the thread alone: its guards count how often it entered a monitor,
it takes a data lock when it gets a guard or comes back from a wait, and frees it when it drops
the guard or goes to wait.
-/

namespace ScheduleSearch

/-- What a step does to the data locks: it takes the listed ones, or frees them. -/
structure Grip where
  mutexes : List Nat
  taken : Bool

namespace Grip

/-- The data locks are left alone. -/
def none : Grip := ⟨[], false⟩

def take (mutexes : List Nat) : Grip := ⟨mutexes, true⟩

def free (mutexes : List Nat) : Grip := ⟨mutexes, false⟩

end Grip

/-- What a step makes of the strand that takes it, when some data locks are taken, and what it
does to the data locks. -/
inductive Strand.Move (taken : Nat → Bool) (strand : Strand) : Grip → Strand → Prop
  /-- It does something that does not concern a lock. -/
  | other {after : Strand} (opening : Opening strand.guards strand.code)
      (opens : Opening strand.guards after.code) (guards : after.guards = strand.guards)
      (quiet : ∀ event, strand.event? = some event → event.isQuiet = true) :
      Strand.Move taken strand .none after
  /-- It finds that it has its turn. -/
  | wake {after : Strand} (waits : strand.phase = .waiting) (code : after.code = strand.code)
      (guards : after.guards = strand.guards) : Strand.Move taken strand .none after
  /-- It ends before its time, though the execution has not failed. -/
  | unwind {after : Strand} (quiet : Quiet strand.code) (silent : strand.event? = .none)
      (ended : after.phase = .ended) (code : after.code = []) (guards : after.guards = []) :
      Strand.Move taken strand (.free strand.guards) after
  /-- It passes the place where others may run before it locks a mutex. -/
  | approach {after : Strand} {mutex : Nat} {site : Site} {rest : List Task} (quiet : Quiet rest)
      (before : strand.code = .act (.yield site) :: .act (.enter (Machine.lockOf mutex)) ::
        .tryLock mutex site :: rest)
      (code : after.code = .act (.enter (Machine.lockOf mutex)) :: .tryLock mutex site :: rest)
      (guards : after.guards = strand.guards)
      (event : strand.event? = some (.act (.yield site))) : Strand.Move taken strand .none after
  /-- It enters the monitor of a mutex. -/
  | enter {after : Strand} {mutex : Nat} {site : Site} {rest : List Task} (quiet : Quiet rest)
      (before : strand.code = .act (.enter (Machine.lockOf mutex)) :: .tryLock mutex site :: rest)
      (code : after.code = .tryLock mutex site :: rest) (guards : after.guards = strand.guards)
      (event : strand.event? = some (.act (.enter (Machine.lockOf mutex)))) :
      Strand.Move taken strand .none after
  /-- It takes the data lock of a mutex and has a guard of it. -/
  | tryLock {after : Strand} {mutex : Nat} {site : Site} {rest : List Task} (quiet : Quiet rest)
      (free : taken mutex = false) (before : strand.code = .tryLock mutex site :: rest)
      (code : after.code = rest) (guards : after.guards = mutex :: strand.guards)
      (silent : strand.event? = .none) : Strand.Move taken strand (.take [mutex]) after
  /-- It drops a guard. -/
  | drop {after : Strand} {mutex : Nat} (opening : Opening strand.guards strand.code)
      (held : mutex ∈ strand.guards) (quiet : Quiet after.code)
      (guards : after.guards = strand.guards.erase mutex)
      (event : strand.event? = some (.act (.leave (Machine.lockOf mutex)))) :
      Strand.Move taken strand (.free [mutex]) after
  /-- It gives up the data lock of a mutex to wait. -/
  | lend {after : Strand} {mutex : Nat} {timed : Bool} {operation : Operation} {rest : List Task}
      (held : mutex ∈ strand.guards) (quiet : Quiet rest)
      (before : strand.code = .beginWait mutex timed operation :: rest)
      (code : after.code = .act (.wait (Machine.lockOf mutex) timed) :: .relock mutex ::
        .endWait operation :: rest) (guards : after.guards = strand.guards)
      (event : strand.event? = some (.readInterrupt true)) :
      Strand.Move taken strand (.free [mutex]) after
  /-- It gives up the monitor of a mutex and waits. -/
  | wait {after : Strand} {mutex : Nat} {timed : Bool} {operation : Operation} {rest : List Task}
      (held : mutex ∈ strand.guards) (quiet : Quiet rest)
      (before : strand.code = .act (.wait (Machine.lockOf mutex) timed) :: .relock mutex ::
        .endWait operation :: rest)
      (code : after.code = .relock mutex :: .endWait operation :: rest)
      (guards : after.guards = strand.guards)
      (event : strand.event? = some (.act (.wait (Machine.lockOf mutex) timed))) :
      Strand.Move taken strand .none after
  /-- It takes the data lock of a mutex again after a wait. -/
  | relock {after : Strand} {mutex : Nat} {operation : Operation} {rest : List Task}
      (held : mutex ∈ strand.guards) (quiet : Quiet rest)
      (before : strand.code = .relock mutex :: .endWait operation :: rest)
      (code : after.code = .endWait operation :: rest) (guards : after.guards = strand.guards)
      (silent : strand.event? = .none) : Strand.Move taken strand (.take [mutex]) after

namespace Strand.Move

variable {taken : Nat → Bool} {after : Strand} {grip : Grip}

/-- The code keeps to the forms. -/
theorem planned (move : Move taken strand grip after)
    (planned : Planned strand.guards strand.code) : Planned after.guards after.code := by
  cases move with
  | other opening opens guards quiet =>
      rw [guards]
      exact .opening opens
  | wake waits code guards =>
      rw [guards, code]
      exact planned
  | unwind quiet silent ended code guards =>
      rw [code]
      exact quiet_nil.planned
  | approach quiet before code guards event =>
      rw [code]
      exact .enter quiet
  | enter quiet before code guards event =>
      rw [code]
      exact .tryLock quiet
  | tryLock quiet free before code guards silent =>
      rw [code]
      exact quiet.planned
  | drop opening held quiet guards event => exact quiet.planned
  | lend held quiet before code guards event =>
      rw [guards, code]
      exact .wait held quiet
  | wait held quiet before code guards event =>
      rw [guards, code]
      exact .relock held quiet
  | relock held quiet before code guards silent =>
      rw [code]
      exact (quiet.cons rfl).planned

/-- Guards and attempts together count how often the monitor was entered without being left. -/
theorem entered (move : Move taken strand grip after) (goesOn : after.phase ≠ .ended)
    (mutex : Nat) :
    after.entered mutex +
        (if strand.event? = some (.act (.leave (Machine.lockOf mutex))) then 1 else 0) =
      strand.entered mutex +
        (if strand.event? = some (.act (.enter (Machine.lockOf mutex))) then 1 else 0) := by
  cases move with
  | @other after opening opens guards quiet =>
      have noLeave : strand.event? ≠ some (.act (.leave (Machine.lockOf mutex))) := by
        intro event
        cases quiet _ event
      have noEnter : strand.event? ≠ some (.act (.enter (Machine.lockOf mutex))) := by
        intro event
        cases quiet _ event
      rw [if_neg noLeave, if_neg noEnter, opening.entered, opens.entered, guards]
  | @wake after waits code guards =>
      have silent : strand.event? = .none := by
        rw [Strand.event?, waits]
      rw [silent, Strand.entered, Strand.entered, code, guards]
      rfl
  | unwind quiet silent ended code guards => exact absurd ended goesOn
  | approach quiet before code guards event =>
      rw [event, Strand.entered, Strand.entered, before, code, guards]
      rfl
  | @enter after entered site rest quiet before code guards event =>
      rw [event, Strand.entered, Strand.entered, before, code, guards]
      by_cases here : entered = mutex
      · subst here
        simp [Task.tries]
      · simp [Task.tries, Machine.lockOf, here]
  | @tryLock after tried site rest quiet free before code guards silent =>
      rw [silent, Strand.entered, Strand.entered, before, code, guards,
        head_tries_of_quiet quiet, List.count_cons]
      simp [Task.tries]
  | @drop after dropped opening held quiet guards event =>
      rw [event, opening.entered, Strand.entered, guards, head_tries_of_quiet quiet]
      by_cases here : dropped = mutex
      · subst here
        have counted := List.count_pos_iff.2 held
        simp [List.count_erase_self]
        omega
      · simp [Machine.lockOf, here, List.count_erase_of_ne (Ne.symm here)]
  | lend held quiet before code guards event =>
      rw [event, Strand.entered, Strand.entered, before, code, guards]
      rfl
  | wait held quiet before code guards event =>
      rw [event, Strand.entered, Strand.entered, before, code, guards]
      rfl
  | relock held quiet before code guards silent =>
      rw [silent, Strand.entered, Strand.entered, before, code, guards]
      rfl

/-- A data lock that is left alone is held as before. -/
theorem holds_iff (move : Move taken strand grip after) {mutex : Nat}
    (untouched : mutex ∉ grip.mutexes) : after.Holds mutex ↔ strand.Holds mutex := by
  cases move with
  | other opening opens guards quiet =>
      rw [Strand.Holds, Strand.Holds, guards, opening.isInsideWait, opens.isInsideWait]
  | wake waits code guards =>
      rw [Strand.Holds, Strand.Holds, Strand.isInsideWait, Strand.isInsideWait, code, guards]
  | unwind quiet silent ended code guards =>
      rw [Strand.Holds, Strand.Holds, guards]
      exact iff_of_false (fun holds => List.not_mem_nil holds.1) fun holds => untouched holds.1
  | approach quiet before code guards event =>
      rw [Strand.Holds, Strand.Holds, Strand.isInsideWait, Strand.isInsideWait, before, code,
        guards]
      rfl
  | enter quiet before code guards event =>
      rw [Strand.Holds, Strand.Holds, Strand.isInsideWait, Strand.isInsideWait, before, code,
        guards]
      rfl
  | tryLock quiet free before code guards silent =>
      have other : mutex ≠ _ := fun same => untouched (List.mem_singleton.2 same)
      rw [Strand.Holds, Strand.Holds, Strand.isInsideWait, Strand.isInsideWait, before, code,
        guards, List.mem_cons, or_iff_right other]
      rfl
  | drop opening held quiet guards event =>
      have other : mutex ≠ _ := fun same => untouched (List.mem_singleton.2 same)
      rw [Strand.Holds, Strand.Holds, opening.isInsideWait, Strand.isInsideWait,
        any_retakes_of_quiet quiet, guards, List.mem_erase_of_ne other]
  | @lend after lent timed operation rest held quiet before code guards event =>
      have other : ¬ lent = mutex := fun same => untouched (List.mem_singleton.2 same.symm)
      rw [Strand.Holds, Strand.Holds, Strand.isInsideWait, Strand.isInsideWait, before, code,
        guards]
      simp [Task.retakes, other]
  | wait held quiet before code guards event =>
      rw [Strand.Holds, Strand.Holds, Strand.isInsideWait, Strand.isInsideWait, before, code,
        guards]
      rfl
  | @relock after retaken operation rest held quiet before code guards silent =>
      have other : ¬ retaken = mutex := fun same => untouched (List.mem_singleton.2 same.symm)
      rw [Strand.Holds, Strand.Holds, Strand.isInsideWait, Strand.isInsideWait, before, code,
        guards]
      simp [Task.retakes, other]

/-- A strand that takes a data lock holds it. -/
theorem holds_of_taken (move : Move taken strand grip after) {mutex : Nat}
    (touched : mutex ∈ grip.mutexes) (takes : grip.taken = true) : after.Holds mutex := by
  cases move with
  | other opening opens guards quiet => cases touched
  | wake waits code guards => cases touched
  | unwind quiet silent ended code guards => cases takes
  | approach quiet before code guards event => cases touched
  | enter quiet before code guards event => cases touched
  | tryLock quiet free before code guards silent =>
      obtain rfl := List.mem_singleton.1 touched
      rw [Strand.Holds, Strand.isInsideWait, code, guards]
      exact ⟨List.mem_cons_self, any_retakes_of_quiet quiet mutex⟩
  | drop opening held quiet guards event => cases takes
  | lend held quiet before code guards event => cases takes
  | wait held quiet before code guards event => cases touched
  | relock held quiet before code guards silent =>
      obtain rfl := List.mem_singleton.1 touched
      rw [Strand.Holds, Strand.isInsideWait, code, guards]
      exact ⟨held, any_retakes_of_quiet quiet mutex⟩

/-- A strand frees a data lock only if it holds it, and holds it no longer then. -/
theorem holds_of_freed (move : Move taken strand grip after) {mutex : Nat}
    (touched : mutex ∈ grip.mutexes) (frees : grip.taken = false)
    (once : strand.guards.count mutex ≤ 1) : strand.Holds mutex ∧ ¬ after.Holds mutex := by
  cases move with
  | other opening opens guards quiet => cases touched
  | wake waits code guards => cases touched
  | unwind quiet silent ended code guards =>
      refine ⟨⟨touched, any_retakes_of_quiet quiet mutex⟩, ?_⟩
      rw [Strand.Holds, guards]
      exact fun holds => List.not_mem_nil holds.1
  | approach quiet before code guards event => cases touched
  | enter quiet before code guards event => cases touched
  | tryLock quiet free before code guards silent => cases frees
  | drop opening held quiet guards event =>
      obtain rfl := List.mem_singleton.1 touched
      refine ⟨⟨held, opening.isInsideWait mutex⟩, ?_⟩
      rw [Strand.Holds, guards]
      rintro ⟨still, -⟩
      have counted := List.count_pos_iff.2 still
      rw [List.count_erase_self] at counted
      omega
  | lend held quiet before code guards event =>
      obtain rfl := List.mem_singleton.1 touched
      rw [Strand.Holds, Strand.Holds, Strand.isInsideWait, Strand.isInsideWait, before, code]
      refine ⟨⟨held, any_retakes_of_quiet quiet mutex⟩, ?_⟩
      simp [Task.retakes]
  | wait held quiet before code guards event => cases touched
  | relock held quiet before code guards silent => cases frees

/-- A strand comes to a second guard of a mutex only if the data lock is free though it holds
it. -/
theorem once (move : Move taken strand grip after) {mutex : Nat}
    (holds : strand.Holds mutex → taken mutex = true) (once : strand.guards.count mutex ≤ 1) :
    after.guards.count mutex ≤ 1 := by
  cases move with
  | other opening opens guards quiet => rwa [guards]
  | wake waits code guards => rwa [guards]
  | unwind quiet silent ended code guards =>
      rw [guards]
      exact Nat.zero_le 1
  | approach quiet before code guards event => rwa [guards]
  | enter quiet before code guards event => rwa [guards]
  | @tryLock after tried site rest quiet free before code guards silent =>
      rw [guards, List.count_cons]
      split
      next same =>
        obtain rfl := beq_iff_eq.1 same
        have absent : tried ∉ strand.guards := by
          intro held
          have outside : strand.isInsideWait tried = false := by
            rw [Strand.isInsideWait, before]
            exact any_retakes_of_quiet quiet tried
          rw [holds ⟨held, outside⟩] at free
          cases free
        exact Nat.le_of_eq (congrArg (· + 1) (List.count_eq_zero_of_not_mem absent))
      next => exact once
  | drop opening held quiet guards event =>
      rw [guards]
      exact Nat.le_trans (List.erase_sublist.count_le mutex) once
  | lend held quiet before code guards event => rwa [guards]
  | wait held quiet before code guards event => rwa [guards]
  | relock held quiet before code guards silent => rwa [guards]

/-- A strand that enters a monitor wants the mutex, if it has no guard of it. -/
theorem wants_of_enter (move : Move taken strand grip after) {mutex : Nat}
    (enters : strand.event? = some (.act (.enter (Machine.lockOf mutex))))
    (absent : mutex ∉ strand.guards) : after.Wants mutex := by
  cases move with
  | other opening opens guards quiet => cases quiet _ enters
  | wake waits code guards =>
      rw [Strand.event?, waits] at enters
      cases enters
  | unwind quiet silent ended code guards => cases silent.symm.trans enters
  | approach quiet before code guards event => cases event.symm.trans enters
  | @enter after entered site rest quiet before code guards event =>
      obtain rfl : entered = mutex := by simpa [Machine.lockOf] using event.symm.trans enters
      rw [← guards] at absent
      exact Or.inl ⟨site, rest, code, absent⟩
  | tryLock quiet free before code guards silent => cases silent.symm.trans enters
  | drop opening held quiet guards event => cases event.symm.trans enters
  | lend held quiet before code guards event => cases event.symm.trans enters
  | wait held quiet before code guards event => cases event.symm.trans enters
  | relock held quiet before code guards silent => cases silent.symm.trans enters

/-- A strand that waits on a monitor wants the data lock again. -/
theorem wants_of_wait (move : Move taken strand grip after) {mutex : Nat} {timed : Bool}
    (waits : strand.event? = some (.act (.wait (Machine.lockOf mutex) timed))) :
    after.Wants mutex := by
  cases move with
  | other opening opens guards quiet => cases quiet _ waits
  | wake sleeps code guards =>
      rw [Strand.event?, sleeps] at waits
      cases waits
  | unwind quiet silent ended code guards => cases silent.symm.trans waits
  | approach quiet before code guards event => cases event.symm.trans waits
  | enter quiet before code guards event => cases event.symm.trans waits
  | tryLock quiet free before code guards silent => cases silent.symm.trans waits
  | drop opening held quiet guards event => cases event.symm.trans waits
  | lend held quiet before code guards event => cases event.symm.trans waits
  | @wait after awaited _ operation rest held quiet before code guards event =>
      have same := event.symm.trans waits
      obtain rfl : awaited = mutex := by
        simp only [Option.some.injEq, Event.act.injEq, Action.wait.injEq, Machine.lockOf,
          LockId.mk.injEq] at same
        exact same.1
      exact Or.inr ⟨_, code⟩
  | relock held quiet before code guards silent => cases silent.symm.trans waits

/-- A strand that is about to wait has just read and cleared its interrupt flag. -/
theorem of_aboutToWait (move : Move taken strand grip after) (about : after.AboutToWait) :
    strand.event? = some (.readInterrupt true) ∨
      (strand.phase = .waiting ∧ strand.AboutToWait) := by
  have quietly : ¬ Quiet after.code := fun quiet => quiet.not_aboutToWait about
  obtain ⟨lock, timed, behind, head⟩ := about
  cases move with
  | other opening opens guards quiet =>
      exact absurd ⟨lock, timed, behind, head⟩ opens.not_aboutToWait
  | wake waits code guards =>
      rw [code] at head
      exact Or.inr ⟨waits, lock, timed, behind, head⟩
  | unwind quiet silent ended code guards => cases code.symm.trans head
  | approach quiet before code guards event => cases code.symm.trans head
  | enter quiet before code guards event => cases code.symm.trans head
  | tryLock quiet free before code guards silent =>
      rw [← code] at quiet
      exact absurd quiet quietly
  | drop opening held quiet guards event => exact absurd quiet quietly
  | lend held quiet before code guards event => exact Or.inl event
  | wait held quiet before code guards event => cases code.symm.trans head
  | relock held quiet before code guards silent => cases code.symm.trans head

end Strand.Move

end ScheduleSearch
