import ScheduleSearch.Proofs.Cooperative.Steps

/-!
# What a machine reports

Every step of a machine reports one event at most, on behalf of the thread that the host thread
of the strand carries or starts to carry.  Such an event keeps the gate ready and leaves alone
who carries whom, but for the host thread that reports it.
-/

namespace ScheduleSearch

private theorem Strand.event?_ne_bind {strand : Strand} (started : strand.phase ≠ .unstarted)
    (host : Host) : strand.event? ≠ some (.bind host) := by
  intro binds
  rw [event?] at binds
  split at binds
  next unstarted => exact started unstarted
  next =>
    split at binds
    next task rest code =>
      rw [Task.event?.eq_def] at binds
      split at binds <;> cases binds
    next => cases binds
    next => cases binds
  next => cases binds
  next => cases binds

namespace Machine

variable {σ : Type} {machine reached : Machine σ} {me actor thread : ThreadId}
  {strand after : Strand} {grip : Grip}

/-- The thread for which a strand reports: the one that its host thread carries or starts to
carry. -/
def reporter (machine : Machine σ) (me : ThreadId) (strand : Strand) : ThreadId :=
  match strand.phase with
  | .unstarted => me
  | _ => (machine.gate.caller? strand.host).getD me

/-- What the next step reports, if it reports an event. -/
def report? (machine : Machine σ) : Option (ThreadId × Event) :=
  machine.turn.bind fun me =>
    (machine.strands.get? me).bind fun strand =>
      strand.event?.map fun event => (machine.reporter me strand, event)

theorem report?_eq (turn : machine.turn = some me)
    (found : machine.strands.get? me = some strand) :
    machine.report? = strand.event?.map fun event => (machine.reporter me strand, event) := by
  rw [report?, turn, Option.bind_some, found, Option.bind_some]

variable [DecisionSource σ]

/-- What at most the given number of steps report. -/
def reports : Nat → Machine σ → History
  | 0, _ => []
  | count + 1, machine => machine.report?.toList ++ reports count machine.step

theorem step_of_idle (idle : machine.turn = none) : machine.step = machine := by
  rw [step, idle]

private theorem steps_of_idle (idle : machine.turn = none) (count : Nat) :
    steps count machine = machine := by
  cases count with
  | zero => rfl
  | succ count =>
      rw [steps, idle]
      rfl

private theorem steps_step (count : Nat) (machine : Machine σ) :
    steps (count + 1) machine = steps count machine.step := by
  rw [steps]
  split
  next idle =>
    have nobody := Option.isNone_iff_eq_none.1 idle
    rw [step_of_idle nobody]
    exact (steps_of_idle nobody count).symm
  next => rfl

theorem steps_succ (count : Nat) (machine : Machine σ) :
    steps (count + 1) machine = (steps count machine).step := by
  induction count generalizing machine with
  | zero => exact steps_step 0 machine
  | succ count inductionHypothesis =>
      rw [steps_step, inductionHypothesis, ← steps_step]

theorem reports_succ (count : Nat) (machine : Machine σ) :
    reports (count + 1) machine =
      reports count machine ++ (steps count machine).report?.toList := by
  induction count generalizing machine with
  | zero => exact List.append_nil _
  | succ count inductionHypothesis =>
      rw [reports, inductionHypothesis, ← List.append_assoc, steps_step]
      rfl

/-- The strand has the turn, and what it reports for the running thread keeps the gate ready and
leaves alone who carries whom, but for its own host thread. -/
structure Reporting (machine : Machine σ) (me : ThreadId) (strand : Strand) (actor : ThreadId) :
    Prop where
  turn : machine.turn = some me
  found : machine.strands.get? me = some strand
  goesOn : strand.phase ≠ .ended
  same : actor.lineage = me.lineage
  runs : machine.gate.model.threads.state? actor = some .running
  reporter : machine.reporter me strand = actor
  ready : (machine.gateAfter actor strand.event?).Ready
  carries : strand.event? ≠ some .exit →
    (machine.gateAfter actor strand.event?).caller? strand.host = some actor
  others : ∀ host ≠ strand.host,
    (machine.gateAfter actor strand.event?).caller? host = machine.gate.caller? host
  free : ∀ thread, thread.lineage ≠ me.lineage → machine.gate.model.isLive thread = true →
    machine.gate.model.registry.hostOf? thread = none →
      (machine.gateAfter actor strand.event?).model.isLive thread = true ∧
        (machine.gateAfter actor strand.event?).model.registry.hostOf? thread = none

/-- A strand that was started reports for the thread that its host thread carries. -/
theorem Acting.reporting (acting : machine.Acting me strand actor)
    (started : strand.phase ≠ .unstarted) (goesOn : strand.phase ≠ .ended) :
    machine.Reporting me strand actor := by
  have reporter : machine.reporter me strand = actor := by
    rw [Machine.reporter]
    split
    next unstarted => exact absurd unstarted started
    next => rw [acting.carries, Option.getD_some]
  have notBirth := Strand.event?_ne_bind started
  obtain ⟨turn, found, ready, carries, same, runs⟩ := acting
  cases reported : strand.event? with
  | none =>
      refine ⟨turn, found, goesOn, same, runs, reporter, ?_, ?_, ?_, ?_⟩
      all_goals rw [reported]
      · exact ready
      · exact fun _ => carries
      · exact fun _ _ => rfl
      · exact fun _ _ live free => ⟨live, free⟩
  | some event =>
      have unbound : ∀ host, event ≠ .bind host := by
        rintro host rfl
        exact notBirth host reported
      refine ⟨turn, found, goesOn, same, runs, reporter, ?_, ?_, ?_, ?_⟩
      all_goals rw [reported]
      · exact ready.ready_reported carries runs unbound
      · intro stays
        have notExit : event ≠ .exit := fun exits => stays (congrArg some exits)
        exact (ready.caller?_reported runs unbound notExit strand.host).trans carries
      · exact fun _ different => ready.caller?_other carries runs unbound different
      · exact fun _ _ live free => ready.free_reported carries runs unbound live free

/-- A strand that starts reports for its own thread. -/
theorem reporting_of_unstarted (ready : machine.gate.Ready) (turn : machine.turn = some me)
    (found : machine.strands.get? me = some strand) (unstarted : strand.phase = .unstarted)
    (runs : machine.gate.model.threads.state? me = some .running)
    (free : machine.gate.model.registry.hostOf? me = none) :
    machine.Reporting me strand me := by
  have live : machine.gate.model.isLive me = true := Scheduler.isLive_iff.2 ⟨_, runs⟩
  have event : strand.event? = some (.bind strand.host) := by
    rw [Strand.event?, unstarted]
  have bound : machine.gateAfter me strand.event? =
      { machine.gate with
        model := { machine.gate.model with
          registry := machine.gate.model.registry.bind strand.host me } } := by
    rw [event]
    exact Gate.reported_bind live strand.host
  have carriers : ∀ host, (machine.gateAfter me strand.event?).caller? host =
      if host = strand.host then some me else machine.gate.caller? host := by
    rw [bound]
    exact machine.gate.model.registry.threadOf?_bind strand.host me
  constructor
  case turn => exact turn
  case found => exact found
  case goesOn =>
    rw [unstarted]
    decide
  case same => rfl
  case runs => exact runs
  case reporter => rw [Machine.reporter, unstarted]
  case ready =>
    rw [event]
    exact ready.ready_started live free strand.host
  case carries => exact fun _ => (carriers strand.host).trans (if_pos rfl)
  case others => exact fun host different => (carriers host).trans (if_neg different)
  case free =>
    intro other different alive unbound
    rw [bound]
    refine ⟨alive, ?_⟩
    exact (Registry.hostOf?_bind ..).trans ((if_neg different).trans unbound)

end Machine

end ScheduleSearch
