import ScheduleSearch.Proofs.Cooperative.Failures
import ScheduleSearch.Proofs.Cooperative.Reports
import ScheduleSearch.Proofs.Cooperative.Tasks

/-!
# Executions of cooperative programs

As long as an execution of a cooperative program has not failed, its strands and the gate belong
together: the strand that has the turn is that of the running thread, every strand that was
started is carried by its own host thread, and the code of every strand is of one of the known
forms.  What the strands report is a run of the model.
-/

namespace ScheduleSearch.Machine

variable {σ : Type} [DecisionSource σ] {machine reached : Machine σ}
  {me actor thread : ThreadId} {strand after : Strand} {grip : Grip}

/-- What is known of a strand of an execution that has not failed. -/
structure Seated (machine : Machine σ) (thread : ThreadId) (strand : Strand) : Prop where
  known : machine.gate.model.Known thread
  hosted : strand.host < machine.strands.size
  planned : Planned strand.guards strand.code
  unborn : strand.phase = .unstarted → machine.gate.model.isLive thread = true ∧
    machine.gate.model.registry.hostOf? thread = none ∧ Quiet strand.code
  manned : strand.phase = .active ∨ strand.phase = .waiting →
    ∃ actor, machine.gate.caller? strand.host = some actor ∧ actor.lineage = thread.lineage
  bare : strand.phase = .ended → strand.guards = []

/-- The strands and the gate of a cooperative program belong together. -/
structure Tied (machine : Machine σ) : Prop where
  ready : machine.gate.Ready
  turn : ∀ me, machine.turn = some me →
    machine.gate.model.threads.state? me = some .running
  seated : ∀ thread strand, machine.strands.get? thread = some strand →
    machine.Seated thread strand
  apart : ∀ first second firstStrand secondStrand,
    machine.strands.get? first = some firstStrand →
      machine.strands.get? second = some secondStrand → firstStrand.host = secondStrand.host →
        first.lineage = second.lineage
  cooperative : machine.program.isCooperative = true
  size : machine.cells.size = machine.program.mutexes.length

private theorem known_gateAfter (known : machine.gate.model.Known thread) (actor : ThreadId)
    (event? : Option Event) : (machine.gateAfter actor event?).model.Known thread := by
  cases event? with
  | none => exact known
  | some event => exact known.step actor event

/-- A strand that has not the turn stays in its place. -/
theorem Seated.kept {other : Strand} (seated : machine.Seated thread other)
    (reporting : machine.Reporting me strand actor)
    (advance : Advance machine me strand actor after grip reached)
    (different : thread.lineage ≠ me.lineage) (apart : other.host ≠ strand.host) :
    reached.Seated thread other where
  known := by
    rw [advance.gate]
    exact known_gateAfter seated.known actor strand.event?
  hosted := Nat.lt_of_lt_of_le seated.hosted advance.larger
  planned := seated.planned
  unborn := by
    intro unstarted
    obtain ⟨live, free, quiet⟩ := seated.unborn unstarted
    obtain ⟨stays, unbound⟩ := reporting.free thread different live free
    rw [advance.gate]
    exact ⟨stays, unbound, quiet⟩
  manned := by
    intro started
    rw [advance.gate, reporting.others other.host apart]
    exact seated.manned started
  bare := seated.bare

/-- The strand that had the turn stays in its place. -/
theorem Seated.advance (seated : machine.Seated thread strand)
    (reporting : machine.Reporting me strand actor) (own : thread.lineage = me.lineage)
    (move : strand.Move machine.isTaken grip after)
    (advance : Advance machine me strand actor after grip reached) :
    reached.Seated thread after where
  known := by
    rw [advance.gate]
    exact known_gateAfter seated.known actor strand.event?
  hosted := by
    rw [advance.host]
    exact Nat.lt_of_lt_of_le seated.hosted advance.larger
  planned := move.planned seated.planned
  unborn := fun unstarted => absurd unstarted advance.started
  manned := by
    intro goesOn
    have stays : strand.event? ≠ some .exit := by
      intro exits
      rw [advance.exits exits] at goesOn
      rcases goesOn with active | waiting
      · cases active
      · cases waiting
    rw [advance.gate, advance.host]
    exact ⟨actor, reporting.carries stays, reporting.same.trans own.symm⟩
  bare := advance.bare

/-- A child that is announced takes its place. -/
theorem Reporting.seated_newcomer (reporting : machine.Reporting me strand actor)
    (ready : machine.gate.Ready) (cooperative : machine.program.isCooperative = true)
    (advance : Advance machine me strand actor after grip reached)
    (announces : strand.event? = some .announce)
    (born : thread.lineage = actor.lineage ++ [machine.gate.model.nextNumber actor])
    (larger : machine.strands.size < reached.strands.size) (key : String) :
    reached.Seated thread (machine.newcomer key) := by
  have live : machine.gate.model.isLive actor = true :=
    Scheduler.isLive_iff.2 ⟨_, reporting.runs⟩
  have gate : reached.gate = machine.gate.reported actor .announce := by
    rw [advance.gate, announces]
    rfl
  have alive : reached.gate.model.isLive thread = true := by
    rw [gate]
    exact (Scheduler.isLive_step live .announce thread).2 (Or.inl born)
  have quiet : Quiet (machine.newcomer key).code := by
    have code := quiet_nil.run_append (machine.program.allCooperative_instructions cooperative key)
    rwa [List.append_nil] at code
  constructor
  case known => exact Or.inl alive
  case hosted => exact larger
  case planned => exact quiet.planned
  case unborn =>
    refine fun _ => ⟨alive, ?_, quiet⟩
    have registry : reached.gate.model.registry =
        (machine.gate.model.announce actor).2.registry := by
      rw [gate]
      exact Gate.registry_reported ready reporting.runs .announce
    rw [registry]
    cases carrier : machine.gate.model.registry.hostOf? thread with
    | none => exact carrier
    | some host =>
        have known : machine.gate.model.Known thread :=
          Or.inl (ready.carried thread (Table.contains_iff.2 ⟨host, carrier⟩))
        exact absurd known (ready.coherent.child_unknown live born)
  case manned => rintro (active | waiting) <;> contradiction
  case bare => exact fun _ => rfl

/-- A strand of the machine that was reached is one of before, with its host thread, or the
child that was announced. -/
theorem Advance.origin (advance : Advance machine me strand actor after grip reached)
    (found : machine.strands.get? me = some strand) {other : Strand}
    (stands : reached.strands.get? thread = some other) :
    (∃ before, machine.strands.get? thread = some before ∧ other.host = before.host) ∨
      (other.host = machine.strands.size ∧
        thread.lineage = actor.lineage ++ [machine.gate.model.nextNumber actor]) := by
  by_cases own : thread.lineage = me.lineage
  · have same := ThreadId.compare_eq_iff.2 own
    rw [Table.get?_congr _ same, advance.own] at stands
    obtain rfl := Option.some.inj stands
    rw [Table.get?_congr _ same]
    exact Or.inl ⟨strand, found, advance.host⟩
  · rcases advance.others thread own with kept | ⟨-, born, -, key, newcomer⟩
    · rw [kept] at stands
      exact Or.inl ⟨other, stands, rfl⟩
    · rw [newcomer] at stands
      obtain rfl := Option.some.inj stands
      exact Or.inr ⟨rfl, born⟩

/-- Strands and gate still belong together after a move. -/
theorem Tied.advance (tied : machine.Tied) (reporting : machine.Reporting me strand actor)
    (move : strand.Move machine.isTaken grip after)
    (advance : Advance machine me strand actor after grip reached) : reached.Tied := by
  have found := reporting.found
  constructor
  case ready =>
    rw [advance.gate]
    exact reporting.ready
  case turn => exact advance.turn
  case seated =>
    intro thread other stands
    by_cases own : thread.lineage = me.lineage
    · have same := ThreadId.compare_eq_iff.2 own
      rw [Table.get?_congr _ same, advance.own] at stands
      obtain rfl := Option.some.inj stands
      have seated := tied.seated thread strand ((Table.get?_congr _ same).trans found)
      exact seated.advance reporting own move advance
    · rcases advance.others thread own with kept | ⟨announces, born, larger, key, newcomer⟩
      · rw [kept] at stands
        refine (tied.seated thread other stands).kept reporting advance own ?_
        exact fun sameHost => own (tied.apart thread me other strand stands found sameHost)
      · rw [newcomer] at stands
        obtain rfl := Option.some.inj stands
        exact reporting.seated_newcomer tied.ready tied.cooperative advance announces born
          larger key
  case apart =>
    intro first second firstStrand secondStrand firstStands secondStands sameHost
    rcases advance.origin found firstStands with
      ⟨firstBefore, firstFound, firstHost⟩ | ⟨firstHost, firstBorn⟩
    · rcases advance.origin found secondStands with
        ⟨secondBefore, secondFound, secondHost⟩ | ⟨secondHost, -⟩
      · refine tied.apart first second firstBefore secondBefore firstFound secondFound ?_
        rw [← firstHost, ← secondHost, sameHost]
      · have hosted := (tied.seated first firstBefore firstFound).hosted
        rw [← firstHost, sameHost, secondHost] at hosted
        exact absurd hosted (Nat.lt_irrefl _)
    · rcases advance.origin found secondStands with
        ⟨secondBefore, secondFound, secondHost⟩ | ⟨-, secondBorn⟩
      · have hosted := (tied.seated second secondBefore secondFound).hosted
        rw [← secondHost, ← sameHost, firstHost] at hosted
        exact absurd hosted (Nat.lt_irrefl _)
      · rw [firstBorn, secondBorn]
  case cooperative =>
    rw [advance.program]
    exact tied.cooperative
  case size => rw [advance.size, advance.program, tied.size]

private theorem step_of_unstarted (turn : machine.turn = some me)
    (found : machine.strands.get? me = some strand) (unstarted : strand.phase = .unstarted) :
    machine.step = machine.after me { strand with phase := .active }
      (machine.gate.started strand.host me)
      fun machine _ => machine.put me { strand with phase := .active } := by
  simp only [step, turn, found, unstarted]

private theorem step_of_waiting (turn : machine.turn = some me)
    (found : machine.strands.get? me = some strand) (waiting : strand.phase = .waiting) :
    machine.step = machine.after me { strand with phase := .active }
      { answer := machine.gate.awaitTurn me, ring := .nobody, gate := machine.gate }
      fun machine _ => machine.put me { strand with phase := .active } := by
  simp only [step, turn, found, waiting]

private theorem step_of_active (turn : machine.turn = some me)
    (found : machine.strands.get? me = some strand) (active : strand.phase = .active) :
    machine.step =
      match strand.code, strand.guards with
      | task :: rest, _ => machine.carryOut me strand rest task
      | [], mutex :: _ => machine.carryOut me strand [] (.drop mutex)
      | [], [] => machine.conclude me strand := by
  cases code : strand.code with
  | nil => cases guards : strand.guards <;> simp only [step, turn, found, active, code, guards]
  | cons task rest => simp only [step, turn, found, active, code]

theorem step_of_task (turn : machine.turn = some me)
    (found : machine.strands.get? me = some strand) (active : strand.phase = .active)
    {task : Task} {rest : List Task} (code : strand.code = task :: rest) :
    machine.step = machine.carryOut me strand rest task := by
  rw [step_of_active turn found active, code]

private theorem step_of_ended (turn : machine.turn = some me)
    (found : machine.strands.get? me = some strand) (ended : strand.phase = .ended) :
    machine.step = { machine with turn := none } := by
  simp only [step, turn, found, ended]

omit [DecisionSource σ] in
/-- Whoever was started and did not end acts for the running thread. -/
theorem Tied.acting (tied : machine.Tied) (turn : machine.turn = some me)
    (found : machine.strands.get? me = some strand)
    (goesOn : strand.phase = .active ∨ strand.phase = .waiting) :
    ∃ actor, machine.Acting me strand actor := by
  obtain ⟨actor, carries, same⟩ := (tied.seated me strand found).manned goesOn
  have runs := (RunStates.state?_congr _ same).trans (tied.turn me turn)
  exact ⟨actor, turn, found, tied.ready, carries, same, runs⟩

omit [DecisionSource σ] in
/-- There is no strand yet for a child that is announced. -/
theorem Tied.fresh (tied : machine.Tied)
    (runs : machine.gate.model.threads.state? actor = some .running) (thread : ThreadId)
    (born : thread.lineage = actor.lineage ++ [machine.gate.model.nextNumber actor]) :
    machine.strands.get? thread = none := by
  have live : machine.gate.model.isLive actor = true := Scheduler.isLive_iff.2 ⟨_, runs⟩
  cases found : machine.strands.get? thread with
  | none => rfl
  | some strand =>
      exact absurd (tied.seated thread strand found).known
        (tied.ready.coherent.child_unknown live born)

/-- A strand that starts has its turn already. -/
theorem Tied.start (tied : machine.Tied) (turn : machine.turn = some me)
    (found : machine.strands.get? me = some strand) (unstarted : strand.phase = .unstarted) :
    machine.Advances me strand me machine.step := by
  have runs := tied.turn me turn
  obtain ⟨live, free, quiet⟩ := (tied.seated me strand found).unborn unstarted
  have event : strand.event? = some (.bind strand.host) := by
    rw [Strand.event?, unstarted]
  have ready := tied.ready.ready_started live free strand.host
  have still : (machine.gate.reported me (.bind strand.host)).model.threads.state? me =
      some .running := by
    rw [Gate.reported_bind live]
    exact runs
  have stepped : (machine.gate.model.step me (.bind strand.host)).1 = .ok .done := by
    rw [Scheduler.step, Scheduler.ifLive, if_pos live]
    rfl
  have called := (Midway.refl machine me).call stepped
  rw [← event] at called
  have stays : strand.event? ≠ some .exit := Strand.event?_ne_of_reports event (by simp)
  rw [step_of_unstarted turn found unstarted, tied.ready.started live,
    Gate.look_turn_of_unfailed ready.unfailed, if_pos (RunStates.isRunning_iff.2 still)]
  refine Or.inr ⟨{ strand with phase := .active }, .none, .other (.quiet quiet) (.quiet quiet)
    rfl ?_, called.put turn rfl rfl rfl stays still⟩
  intro other same
  rw [event] at same
  cases same
  rfl

/-- A strand that waits for its turn finds that it has it. -/
theorem Acting.wake (acting : machine.Acting me strand actor) (waiting : strand.phase = .waiting) :
    machine.Advances me strand actor machine.step := by
  have silent : strand.event? = none := by
    rw [Strand.event?, waiting]
  have runs : machine.gate.model.threads.state? me = some .running :=
    (RunStates.state?_congr _ acting.same.symm).trans acting.runs
  have bell := acting.ready.belled me (Scheduler.isLive_iff.2 ⟨_, runs⟩)
  have stays := Strand.event?_ne_of_silent silent .exit
  have here := Midway.refl machine actor
  rw [show none = strand.event? from silent.symm] at here
  rw [step_of_waiting acting.turn acting.found waiting, Gate.awaitTurn_of_bell bell,
    Gate.look_turn_of_unfailed acting.ready.unfailed,
    if_pos (RunStates.isRunning_iff.2 runs)]
  exact Or.inr ⟨{ strand with phase := .active }, .none, .wake waiting rfl rfl,
    here.put acting.turn acting.same rfl rfl stays acting.runs⟩

/-- A strand that runs carries out its next task, drops a guard that it has left, or ends. -/
theorem Acting.goOn (acting : machine.Acting me strand actor)
    (fresh : ∀ thread : ThreadId,
      thread.lineage = actor.lineage ++ [machine.gate.model.nextNumber actor] →
        machine.strands.get? thread = none)
    (planned : Planned strand.guards strand.code) (active : strand.phase = .active)
    (passed : machine.step.gate.failure = none) :
    machine.Advances me strand actor machine.step := by
  rw [step_of_active acting.turn acting.found active] at passed ⊢
  split at passed
  next task rest code => exact acting.carryOut fresh active code planned passed
  next mutex others code guards =>
    have event : strand.event? = some (.act (.leave (lockOf mutex))) := by
      rw [Strand.event?, active, code, guards]
    have held : mutex ∈ strand.guards := by
      rw [guards]
      exact List.mem_cons_self
    have opening : Opening strand.guards strand.code := by
      rw [code]
      exact .quiet quiet_nil
    exact acting.drop active held quiet_nil opening event passed
  next code guards =>
    have event : strand.event? = some .exit := by
      rw [Strand.event?, active, code, guards]
    exact acting.conclude event code guards passed

/-- A step of an execution that does not fail either reports nothing and gives up the turn, or is
a move of the strand that has it. -/
theorem Tied.step_cases (tied : machine.Tied) (passed : machine.step.gate.failure = none) :
    (machine.report? = none ∧ machine.step = { machine with turn := none }) ∨
      ∃ me strand actor after grip, machine.Reporting me strand actor ∧
        strand.Move machine.isTaken grip after ∧
        Advance machine me strand actor after grip machine.step := by
  cases turn : machine.turn with
  | none =>
      refine Or.inl ⟨?_, ?_⟩
      · rw [report?, turn, Option.bind_none]
      · rw [← turn]
        exact step_of_idle turn
  | some me =>
      cases found : machine.strands.get? me with
      | none =>
          refine Or.inl ⟨?_, ?_⟩
          · rw [report?, turn, Option.bind_some, found, Option.bind_none]
          · simp only [step, turn, found]
      | some strand =>
          have silently : strand.event? = none → machine.report? = none := by
            intro silent
            rw [report?_eq turn found, silent, Option.map_none]
          have moved : ∀ actor, machine.Reporting me strand actor →
              machine.Advances me strand actor machine.step →
                (machine.report? = none ∧ machine.step = { machine with turn := none }) ∨
                  ∃ me strand actor after grip, machine.Reporting me strand actor ∧
                    strand.Move machine.isTaken grip after ∧
                    Advance machine me strand actor after grip machine.step := by
            rintro actor reporting (⟨silent, idle⟩ | ⟨after, grip, move, advance⟩)
            · exact Or.inl ⟨silently silent, idle⟩
            · exact Or.inr ⟨me, strand, actor, after, grip, reporting, move, advance⟩
          have seated := tied.seated me strand found
          cases phase : strand.phase with
          | unstarted =>
              obtain ⟨-, free, -⟩ := seated.unborn phase
              have reporting := reporting_of_unstarted tied.ready turn found phase
                (tied.turn me turn) free
              exact moved me reporting (tied.start turn found phase)
          | active =>
              obtain ⟨actor, acting⟩ := tied.acting turn found (Or.inl phase)
              have started := Strand.underway_of_active phase
              exact moved actor (acting.reporting started.1 started.2)
                (acting.goOn (tied.fresh acting.runs) seated.planned phase passed)
          | waiting =>
              obtain ⟨actor, acting⟩ := tied.acting turn found (Or.inr phase)
              have started := Strand.underway_of_waiting phase
              exact moved actor (acting.reporting started.1 started.2) (acting.wake phase)
          | ended =>
              refine Or.inl ⟨silently ?_, step_of_ended turn found phase⟩
              rw [Strand.event?, phase]

/-- Strands and gate belong together as long as the execution does not fail. -/
theorem Tied.step (tied : machine.Tied) (passed : machine.step.gate.failure = none) :
    machine.step.Tied := by
  rcases tied.step_cases passed with
    ⟨-, idle⟩ | ⟨me, strand, actor, after, grip, reporting, move, advance⟩
  · rw [idle]
    refine ⟨tied.ready, nofun, ?_, tied.apart, tied.cooperative, tied.size⟩
    intro thread strand found
    obtain ⟨known, hosted, planned, unborn, manned, bare⟩ := tied.seated thread strand found
    exact ⟨known, hosted, planned, unborn, manned, bare⟩
  · exact tied.advance reporting move advance

theorem Tied.program_step (tied : machine.Tied) (passed : machine.step.gate.failure = none) :
    machine.step.program = machine.program := by
  rcases tied.step_cases passed with ⟨-, idle⟩ | ⟨me, strand, actor, after, grip, -, -, advance⟩
  · rw [idle]
  · exact advance.program

/-- What a step reports is an event of the running thread that succeeds. -/
theorem Tied.reported (tied : machine.Tied) (passed : machine.step.gate.failure = none)
    {first : Scheduler σ} {history : History}
    (steps : Scheduler.Steps first history machine.gate.model) :
    Scheduler.Steps first (history ++ machine.report?.toList) machine.step.gate.model := by
  rcases tied.step_cases passed with
    ⟨silent, idle⟩ | ⟨me, strand, actor, after, grip, reporting, -, advance⟩
  · rw [silent, idle, Option.toList_none, List.append_nil]
    exact steps
  · rw [advance.gate, report?_eq reporting.turn reporting.found, reporting.reporter]
    cases reported : strand.event? with
    | none =>
        rw [Option.map_none, Option.toList_none, List.append_nil]
        exact steps
    | some event =>
        obtain ⟨reply, succeeded⟩ := advance.succeeds event reported
        have stepped : machine.gate.model.step actor event =
            (.ok reply, (machine.gate.model.step actor event).2) := Prod.ext succeeded rfl
        exact steps.report (RunStates.isRunning_iff.2 reporting.runs) stepped

/-! ## Executions -/

omit [DecisionSource σ] in
/-- In the beginning there is one strand, that of the root. -/
theorem strand_start {program : Program} (cooperative : program.isCooperative = true) {run : Nat}
    {source : σ} {maxDecisions : Nat}
    (stands : (start program run source maxDecisions).strands.get? thread = some strand) :
    thread.lineage = ThreadId.root.lineage ∧ strand.host = rootHost ∧ strand.phase = .active ∧
      strand.guards = [] ∧ Quiet strand.code := by
  have quiet := quiet_nil.run_append
    (program.allCooperative_instructions cooperative ThreadId.rootName)
  rw [List.append_nil] at quiet
  have inserted := (Table.get?_insert Table.empty ThreadId.root thread _).symm.trans stands
  split at inserted
  next same =>
    obtain rfl := Option.some.inj inserted
    exact ⟨ThreadId.compare_eq_iff.1 same, rfl, rfl, rfl, quiet⟩
  next => cases inserted

omit [DecisionSource σ] in
private theorem tied_start {program : Program} (cooperative : program.isCooperative = true)
    (run : Nat)
    (source : σ) (maxDecisions : Nat) : (start program run source maxDecisions).Tied := by
  have runs := Scheduler.state?_begun source maxDecisions rootHost
  constructor
  case ready => exact Gate.ready_begun source maxDecisions rootHost
  case turn =>
    rintro me ⟨⟩
    exact (runs .root).trans (if_pos rfl)
  case seated =>
    intro thread strand stands
    obtain ⟨root, host, active, guards, quiet⟩ := strand_start cooperative stands
    have started := Strand.underway_of_active active
    constructor
    case known => exact Or.inl (Scheduler.isLive_iff.2 ⟨_, (runs thread).trans (if_pos root)⟩)
    case hosted =>
      rw [host]
      exact Nat.zero_lt_one
    case planned => exact quiet.planned
    case unborn => exact fun unstarted => absurd unstarted started.1
    case manned =>
      rw [host]
      exact fun _ => ⟨.root, rfl, root.symm⟩
    case bare => exact fun ended => absurd ended started.2
  case apart =>
    intro first second firstStrand secondStrand firstStands secondStands _
    exact (strand_start cooperative firstStands).1.trans
      (strand_start cooperative secondStands).1.symm
  case cooperative => exact cooperative
  case size => exact List.size_toArray.trans (List.length_map _)

/-- The execution of a program comes to the machine in some number of steps, which report the
history. -/
def Reached (program : Program) (source : σ) (maxDecisions : Nat) (history : History)
    (machine : Machine σ) : Prop :=
  ∃ run count, reports count (start program run source maxDecisions) = history ∧
    steps count (start program run source maxDecisions) = machine

variable {program : Program} {source : σ} {maxDecisions : Nat} {history : History}

/-- What holds in the beginning and is kept by every step that does not fail holds as long as
the execution of a cooperative program has not failed. -/
theorem Reached.preserves (reached : Reached program source maxDecisions history machine)
    (cooperative : program.isCooperative = true) (passed : machine.gate.failure = none)
    {P : History → Machine σ → Prop} (begun : ∀ run, P [] (start program run source maxDecisions))
    (kept : ∀ {history : History} {machine : Machine σ}, machine.Tied →
      machine.step.gate.failure = none → P history machine →
        P (history ++ machine.report?.toList) machine.step) :
    machine.Tied ∧ P history machine := by
  obtain ⟨run, count, rfl, rfl⟩ := reached
  induction count with
  | zero => exact ⟨tied_start cooperative run source maxDecisions, begun run⟩
  | succ count inductionHypothesis =>
      rw [steps_succ] at passed ⊢
      obtain ⟨tied, holds⟩ := inductionHypothesis (failure_before_step passed)
      rw [reports_succ]
      exact ⟨tied.step passed, kept tied passed holds⟩

/-- What the strands report is a run of the model, as long as the execution does not fail. -/
theorem Reached.driven (reached : Reached program source maxDecisions history machine)
    (cooperative : program.isCooperative = true) (passed : machine.gate.failure = none) :
    Scheduler.Driven source maxDecisions rootHost history machine.gate.model := by
  refine (reached.preserves cooperative passed
    (P := fun history machine => Scheduler.Driven source maxDecisions rootHost history
      machine.gate.model) ?_ ?_).2
  · exact fun _ => .refl
  · exact fun tied passed driven => tied.reported passed driven

end ScheduleSearch.Machine
