import ScheduleSearch.Proofs.Cooperative.Runs
import ScheduleSearch.Proofs.Scheduler.Interrupts

/-!
# Waits and interrupts

The event by which a thread waits does not look at the interrupt flag.  A wait through a guard
reads the flag first, and the turn stays with the thread until the event is reported, so nobody
can interrupt it in between; and it reads the flag once more when it has the data lock again.
So no thread waits for a signal while its flag is set, and a wait tells whether the thread was
interrupted.
-/

namespace ScheduleSearch

private theorem Strand.aboutToWait_of_event {strand : Strand} {lock : LockId} {timed : Bool}
    (waits : strand.event? = some (.act (.wait lock timed))) : strand.AboutToWait := by
  rw [event?] at waits
  split at waits
  next => cases waits
  next =>
    split at waits
    next task rest code =>
      rw [Task.event?.eq_def] at waits
      split at waits
      next => cases waits
      next => cases waits
      next action =>
        obtain rfl : action = .wait lock timed := by simpa using waits
        exact ⟨lock, timed, rest, code⟩
      all_goals cases waits
    next => cases waits
    next => cases waits
  next => cases waits
  next => cases waits

namespace Machine

variable {σ : Type}

/-- By the next step a wait through a guard returns with a result: the thread was interrupted
before it waited, or it has waited and tells whether it was interrupted since. -/
def WaitReturns [DecisionSource σ] (machine : Machine σ) (me : ThreadId) (result : Bool) : Prop :=
  machine.turn = some me ∧
    ∃ strand operation rest after, machine.strands.get? me = some strand ∧
      strand.phase = .active ∧
      ((∃ mutex timed, strand.code = .beginWait mutex timed operation :: rest) ∨
        strand.code = .endWait operation :: rest) ∧
      machine.step.strands.get? me = some after ∧
      after.code = .log operation (some (truth result)) :: rest

variable [DecisionSource σ] {machine reached : Machine σ} {me actor thread : ThreadId}
  {strand after : Strand} {grip : Grip}

/-- A strand that is about to wait has the turn, and its thread is not interrupted; and no thread
awaits a signal while it is interrupted. -/
structure Heedful (machine : Machine σ) : Prop where
  about : ∀ thread strand, machine.strands.get? thread = some strand → strand.AboutToWait →
    strand.phase = .active ∧ machine.gate.model.interrupted.contains thread = false ∧
      ∃ me, machine.turn = some me ∧ me.lineage = thread.lineage
  attentive : machine.gate.model.Attentive

private theorem Reporting.clear_of_read (reporting : machine.Reporting me strand actor)
    (read : strand.event? = some (.readInterrupt true))
    (gate : reached.gate = machine.gateAfter actor strand.event?) :
    reached.gate.model.interrupted.contains me = false := by
  have live : machine.gate.model.isLive actor = true :=
    Scheduler.isLive_iff.2 ⟨_, reporting.runs⟩
  have flags : (machine.gate.model.step actor (.readInterrupt true)).2.interrupted =
      machine.gate.model.interrupted.erase actor :=
    Scheduler.interrupted_step live (.readInterrupt true)
  rw [gate, read]
  change (machine.gate.model.step actor (.readInterrupt true)).2.interrupted.contains me = false
  rw [flags, ← Bool.not_eq_true, KeySet.contains_erase]
  exact fun still => still.1 (ThreadId.compare_eq_iff.2 reporting.same.symm)

private theorem Heedful.advance (heedful : machine.Heedful) (tied : machine.Tied)
    (reporting : machine.Reporting me strand actor)
    (move : strand.Move machine.isTaken grip after)
    (advance : Advance machine me strand actor after grip reached) (ties : reached.Tied) :
    reached.Heedful := by
  constructor
  case about =>
    intro thread other stands about
    by_cases own : thread.lineage = me.lineage
    · rw [Table.get?_congr _ (ThreadId.compare_eq_iff.2 own), advance.own] at stands
      obtain rfl := Option.some.inj stands
      rcases move.of_aboutToWait about with read | ⟨waiting, before⟩
      · obtain ⟨turn, active⟩ := advance.keeps read
        have clear := reporting.clear_of_read read advance.gate
        rw [← Scheduler.contains_congr own] at clear
        exact ⟨active, clear, me, turn.trans reporting.turn, own.symm⟩
      · have active := (heedful.about me strand reporting.found before).1
        cases waiting.symm.trans active
    · rcases advance.others thread own with kept | ⟨-, -, -, key, newcomer⟩
      · rw [kept] at stands
        obtain ⟨-, -, turned, turn, same⟩ := heedful.about thread other stands about
        obtain rfl := Option.some.inj (reporting.turn.symm.trans turn)
        exact absurd same.symm own
      · rw [newcomer] at stands
        obtain rfl := Option.some.inj stands
        obtain ⟨-, -, quiet⟩ := (ties.seated thread _ newcomer).unborn rfl
        exact absurd about quiet.not_aboutToWait
  case attentive =>
    rw [advance.gate]
    cases reported : strand.event? with
    | none => exact heedful.attentive
    | some event =>
        obtain ⟨reply, succeeded⟩ := advance.succeeds event reported
        have stepped : machine.gate.model.step actor event =
            (.ok reply, (machine.gate.model.step actor event).2) := Prod.ext succeeded rfl
        refine heedful.attentive.of_ok tied.ready.coherent reporting.runs stepped ?_
        rintro lock rfl
        have about := Strand.aboutToWait_of_event reported
        have clear := (heedful.about me strand reporting.found about).2.1
        rwa [Scheduler.contains_congr reporting.same]

private theorem Heedful.step (heedful : machine.Heedful) (tied : machine.Tied)
    (passed : machine.step.gate.failure = none) : machine.step.Heedful := by
  rcases tied.step_cases passed with
    ⟨silent, idle⟩ | ⟨me, strand, actor, after, grip, reporting, move, advance⟩
  · rw [idle]
    refine ⟨?_, heedful.attentive⟩
    intro thread strand found about
    obtain ⟨active, -, me, turn, same⟩ := heedful.about thread strand found about
    obtain ⟨lock, timed, rest, code⟩ := about
    rw [← Table.get?_congr _ (ThreadId.compare_eq_iff.2 same)] at found
    rw [report?_eq turn found, Strand.event?_of_task active code] at silent
    cases silent
  · exact heedful.advance tied reporting move advance (tied.step passed)

omit [DecisionSource σ] in
private theorem heedful_start {program : Program} (cooperative : program.isCooperative = true)
    (run : Nat)
    (source : σ) (maxDecisions : Nat) : (start program run source maxDecisions).Heedful := by
  constructor
  case about =>
    intro thread strand found about
    obtain ⟨-, -, -, -, quiet⟩ := strand_start cooperative found
    exact absurd about quiet.not_aboutToWait
  case attentive => exact Scheduler.attentive_begun source maxDecisions rootHost

omit [DecisionSource σ] in
private theorem get?_unwind (machine : Machine σ) (me : ThreadId) (strand : Strand) :
    (machine.unwind me strand).strands.get? me =
      some { strand with phase := .ended, code := [], guards := [] } := by
  let ended : Strand := { strand with phase := .ended, code := [], guards := [] }
  obtain ⟨cells, same, -⟩ := gripped_eq (.free strand.guards) (machine.put me ended)
  change ((machine.put me ended).gripped (.free strand.guards)).strands.get? me = some ended
  rw [same]
  exact (get?_put machine me ended me).trans (if_pos rfl)

private theorem truth_injective : Function.Injective truth := by
  intro first second same
  cases first <;> cases second <;> first | rfl | exact absurd same (by decide)

private theorem WaitReturns.unfailed {result : Bool} (returns : machine.WaitReturns me result) :
    machine.gate.failure = none := by
  obtain ⟨turn, strand, operation, rest, after, found, active, waits, stands, code⟩ := returns
  cases failed : machine.gate.failure with
  | none => rfl
  | some fault =>
      have refused : machine.gate.readInterrupt strand.host true = machine.gate.refused :=
        Gate.serve_of_failed failed _ _
      have unwound : machine.step = machine.unwind me strand := by
        rcases waits with ⟨mutex, timed, begins⟩ | ends
        · rw [step_of_task turn found active begins, carryOut, refused]
          rfl
        · rw [step_of_task turn found active ends, carryOut, refused]
          rfl
      rw [unwound, get?_unwind] at stands
      obtain rfl := Option.some.inj stands
      cases code

private theorem WaitReturns.reads {result : Bool} (returns : machine.WaitReturns me result)
    (tied : machine.Tied) :
    ∃ strand actor, machine.Reporting me strand actor ∧
      strand.event? = some (.readInterrupt true) ∧
      machine.step.gate = machine.gateAfter actor strand.event? ∧
      result = machine.gate.model.interrupted.contains actor := by
  obtain ⟨turn, strand, operation, rest, after, found, active, waits, stands, code⟩ := returns
  obtain ⟨actor, acting⟩ := tied.acting turn found (Or.inl active)
  have started := Strand.underway_of_active active
  have event : strand.event? = some (.readInterrupt true) := by
    rcases waits with ⟨mutex, timed, begins⟩ | ends
    · exact Strand.event?_of_task active begins
    · exact Strand.event?_of_task active ends
  have answered := (acting.readInterrupt event).1
  let read : Machine σ := { machine with gate := machine.gate.reported actor (.readInterrupt true) }
  have told : ∀ isSet, machine.step = read.put me
      { strand with code := .log operation (some (truth isSet)) :: rest } →
        machine.step.gate = machine.gateAfter actor strand.event? ∧ result = isSet := by
    intro isSet stepped
    rw [stepped, get?_put, if_pos rfl] at stands
    obtain rfl := Option.some.inj stands
    simp only [List.cons.injEq, Task.log.injEq, Option.some.injEq] at code
    rw [stepped, event]
    exact ⟨rfl, (truth_injective code.1.2).symm⟩
  refine ⟨strand, actor, acting.reporting started.1 started.2, event, ?_⟩
  rcases waits with ⟨mutex, timed, begins⟩ | ends
  · have stepped := step_of_task turn found active begins
    rw [carryOut, answered] at stepped
    cases isSet : machine.gate.model.interrupted.contains actor with
    | true =>
        rw [isSet] at stepped
        exact told true stepped
    | false =>
        rw [isSet] at stepped
        rw [stepped] at stands
        have lent := (get?_put (read.setTaken false mutex) me _ me).symm.trans stands
        rw [if_pos rfl] at lent
        obtain rfl := Option.some.inj lent
        cases code
  · have stepped := step_of_task turn found active ends
    rw [carryOut, answered] at stepped
    exact told _ stepped

/-- As long as an execution of a cooperative program has not failed, no thread awaits a signal
or is parked while its interrupt flag is set; and a wait through a guard that returns tells
whether the thread was interrupted since it last read and cleared the flag, and leaves it
clear. -/
theorem interrupts_reach_waits {program : Program} {source : σ} {maxDecisions : Nat}
    {history : History} (cooperative : program.isCooperative = true)
    (reached : Reached program source maxDecisions history machine) :
    (machine.gate.failure = none → ∀ thread,
      (machine.gate.model.threads.reason? thread = some .park ∨
        ∃ lock, machine.gate.model.threads.reason? thread = some (.signal lock)) →
      machine.gate.model.interrupted.contains thread = false) ∧
    ∀ me result, machine.WaitReturns me result →
      (result = true ↔ history.InterruptedSinceRead me) ∧
        machine.step.gate.model.interrupted.contains me = false := by
  constructor
  · intro passed thread waits
    obtain ⟨tied, heedful⟩ := reached.preserves cooperative passed
      (P := fun _ machine => machine.Heedful)
      (fun run => heedful_start cooperative run source maxDecisions)
      (fun tied passed heedful => heedful.step tied passed)
    rcases waits with parked | ⟨lock, awaits⟩
    · exact (tied.ready.coherent.agreement.park thread parked).2
    · exact heedful.attentive thread lock awaits
  · intro me result returns
    have passed := returns.unfailed
    have driven := reached.driven cooperative passed
    obtain ⟨tied, -⟩ := reached.preserves cooperative passed
      (P := fun _ _ => True) (fun _ => trivial) (fun _ _ => id)
    obtain ⟨strand, actor, reporting, event, gate, rfl⟩ := returns.reads tied
    have live : machine.gate.model.threads.state? me = some .running :=
      tied.turn me reporting.turn
    have stays : machine.gate.model.hasExited me = false := by
      rw [← Bool.not_eq_true]
      intro exited
      cases live.symm.trans (driven.coherent.finished me exited)
    refine ⟨?_, reporting.clear_of_read event gate⟩
    rw [Scheduler.contains_congr reporting.same]
    exact driven.interrupted_iff stays

/-- Lets a child wait, and interrupts it. -/
def interruptedWait : Program where
  lists :=
    [("main", [.use (.spawn "w" default), .use (.interrupt "w")]),
      ("w", [.use (.lock 0 default), .use (.wait 0 false)])]
  mutexes := [0]
  shared := []

/-- The child awaits a signal while it is not interrupted; after it was interrupted its wait
returns, and says so. -/
theorem interrupts_reach_waits_of_child :
    (∃ history machine, Reached interruptedWait (Script.ofAnswers [.position 1, .position 1]) 9
        history machine ∧
      machine.gate.model.threads.reason? (.child .root 0) = some (.signal ⟨0⟩) ∧
      machine.gate.model.interrupted.contains (.child .root 0) = false) ∧
    ∃ history machine, Reached interruptedWait (Script.ofAnswers [.position 1, .position 1]) 9
        history machine ∧
      machine.WaitReturns (.child .root 0) true ∧
      history.InterruptedSinceRead (.child .root 0) ∧
      machine.step.gate.model.interrupted.contains (.child .root 0) = false := by
  have cooperative : interruptedWait.isCooperative = true := rfl
  constructor
  · have reached : Reached interruptedWait (Script.ofAnswers [.position 1, .position 1]) 9 _ _ :=
      ⟨1, 12, rfl, rfl⟩
    have awaits : (steps 12 (start interruptedWait 1
        (Script.ofAnswers [.position 1, .position 1]) 9)).gate.model.threads.reason?
          (.child .root 0) = some (.signal ⟨0⟩) := by decide +kernel
    refine ⟨_, _, reached, awaits, ?_⟩
    refine (interrupts_reach_waits cooperative reached).1 ?_ _ (Or.inr ⟨_, awaits⟩)
    decide +kernel
  · have reached : Reached interruptedWait (Script.ofAnswers [.position 1, .position 1]) 9 _ _ :=
      ⟨1, 20, rfl, rfl⟩
    have returns : (steps 20 (start interruptedWait 1
        (Script.ofAnswers [.position 1, .position 1]) 9)).WaitReturns (.child .root 0) true :=
      ⟨rfl, _, _, _, _, rfl, rfl, Or.inr rfl, rfl, rfl⟩
    obtain ⟨tells, clear⟩ := (interrupts_reach_waits cooperative reached).2 _ _ returns
    exact ⟨_, _, reached, returns, tells.1 rfl, clear⟩

end Machine

end ScheduleSearch
