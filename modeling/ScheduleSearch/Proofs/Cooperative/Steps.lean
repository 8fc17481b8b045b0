import ScheduleSearch.Proofs.Cooperative.Moves
import ScheduleSearch.Proofs.Gate.Ready
import ScheduleSearch.Proofs.State.Sizes

/-!
# Steps of a machine

As long as an execution does not fail, a step of its machine is a move of the strand that has the
turn.  If the strand reports an event, the model does what the event does; the data locks change
as the move says; and the other strands stay as they are, but for a child that is announced.
-/

namespace ScheduleSearch

namespace Machine

variable {σ : Type} {machine reached : Machine σ} {me actor : ThreadId} {strand after : Strand}
  {grip : Grip} {event? : Option Event}

theorem get?_put (machine : Machine σ) (me : ThreadId) (strand : Strand) (other : ThreadId) :
    (machine.put me strand).strands.get? other =
      if other.lineage = me.lineage then some strand else machine.strands.get? other := by
  refine (Table.get?_insert machine.strands me other strand).trans ?_
  simp only [ThreadId.compare_eq_iff]

theorem isTaken_setTaken (machine : Machine σ) (taken : Bool) (mutex : Nat) {other : Nat}
    (within : other < machine.cells.size) :
    (machine.setTaken taken mutex).isTaken other =
      if other = mutex then taken else machine.isTaken other := by
  rw [isTaken, setTaken, Array.getElem?_modify, Array.getElem?_eq_getElem within, isTaken,
    Array.getElem?_eq_getElem within]
  by_cases here : mutex = other
  · rw [if_pos here, if_pos here.symm]
    rfl
  · rw [if_neg here, if_neg (Ne.symm here)]

/-- The machine with some data locks taken or freed. -/
def gripped (machine : Machine σ) (grip : Grip) : Machine σ :=
  grip.mutexes.foldl (fun machine mutex => machine.setTaken grip.taken mutex) machine

/-- To take or free data locks changes nothing else. -/
theorem gripped_eq (grip : Grip) (machine : Machine σ) :
    ∃ cells, machine.gripped grip = { machine with cells := cells } ∧
      cells.size = machine.cells.size ∧ ∀ mutex < machine.cells.size,
        (machine.gripped grip).isTaken mutex =
          if mutex ∈ grip.mutexes then grip.taken else machine.isTaken mutex := by
  obtain ⟨mutexes, taken⟩ := grip
  induction mutexes generalizing machine with
  | nil => exact ⟨machine.cells, rfl, rfl, fun _ _ => rfl⟩
  | cons first rest inductionHypothesis =>
      obtain ⟨cells, same, size, found⟩ := inductionHypothesis (machine.setTaken taken first)
      have kept : (machine.setTaken taken first).cells.size = machine.cells.size :=
        Array.size_modify
      refine ⟨cells, same, size.trans kept, ?_⟩
      intro mutex within
      refine (found mutex (within.trans_eq kept.symm)).trans ?_
      rw [isTaken_setTaken machine taken first within]
      simp only [List.mem_cons]
      by_cases here : mutex = first
      · simp [here]
      · simp [here]

/-- The strand has the turn, and its host thread carries the running thread of a model that has
not failed. -/
structure Acting (machine : Machine σ) (me : ThreadId) (strand : Strand) (actor : ThreadId) :
    Prop where
  turn : machine.turn = some me
  found : machine.strands.get? me = some strand
  ready : machine.gate.Ready
  carries : machine.gate.caller? strand.host = some actor
  same : actor.lineage = me.lineage
  runs : machine.gate.model.threads.state? actor = some .running

variable [DecisionSource σ]

/-- The gate after the event that a step reports, if it reports one. -/
def gateAfter (machine : Machine σ) (actor : ThreadId) : Option Event → Gate σ
  | none => machine.gate
  | some event => machine.gate.reported actor event

/-- A child of which only the start is missing. -/
def newcomer (machine : Machine σ) (key : String) : Strand where
  host := machine.strands.size
  phase := .unstarted
  code := (machine.program.instructions key).map .run
  acc := 0
  guards := []

/-- What a machine has become when the gate was called and the data locks were changed, and the
strand that has the turn is not yet what it will be. -/
structure Midway (machine : Machine σ) (actor : ThreadId) (event? : Option Event) (grip : Grip)
    (reached : Machine σ) : Prop where
  program : reached.program = machine.program
  gate : reached.gate = machine.gateAfter actor event?
  succeeds : ∀ event, event? = some event →
    ∃ reply, (machine.gate.model.step actor event).1 = .ok reply
  strands : reached.strands = machine.strands
  turn : reached.turn = machine.turn
  size : reached.cells.size = machine.cells.size
  taken : ∀ mutex < machine.cells.size,
    reached.isTaken mutex = if mutex ∈ grip.mutexes then grip.taken else machine.isTaken mutex

/-- A machine of which only the shared cells, the handles, the results or the logs changed. -/
theorem Midway.of_same (actor : ThreadId) (program : reached.program = machine.program)
    (gate : reached.gate = machine.gate) (strands : reached.strands = machine.strands)
    (turn : reached.turn = machine.turn) (cells : reached.cells = machine.cells) :
    Midway machine actor none .none reached where
  program := program
  gate := gate
  succeeds := by
    rintro event ⟨⟩
  strands := strands
  turn := turn
  size := congrArg Array.size cells
  taken := by
    intro mutex within
    rw [isTaken, isTaken, cells]
    rfl

theorem Midway.refl (machine : Machine σ) (actor : ThreadId) :
    Midway machine actor none .none machine :=
  Midway.of_same actor rfl rfl rfl rfl rfl

/-- What a step by which a strand becomes `after` makes of the machine. -/
structure Advance (machine : Machine σ) (me : ThreadId) (strand : Strand) (actor : ThreadId)
    (after : Strand) (grip : Grip) (reached : Machine σ) : Prop where
  program : reached.program = machine.program
  gate : reached.gate = machine.gateAfter actor strand.event?
  succeeds : ∀ event, strand.event? = some event →
    ∃ reply, (machine.gate.model.step actor event).1 = .ok reply
  host : after.host = strand.host
  started : after.phase ≠ .unstarted
  exits : strand.event? = some .exit → after.phase = .ended
  bare : after.phase = .ended → after.guards = []
  own : reached.strands.get? me = some after
  others : ∀ other, other.lineage ≠ me.lineage →
    reached.strands.get? other = machine.strands.get? other ∨
      (strand.event? = some .announce ∧
        other.lineage = actor.lineage ++ [machine.gate.model.nextNumber actor] ∧
        machine.strands.size < reached.strands.size ∧
        ∃ key, reached.strands.get? other = some (machine.newcomer key))
  larger : machine.strands.size ≤ reached.strands.size
  turn : ∀ next, reached.turn = some next →
    reached.gate.model.threads.state? next = some .running
  keeps : strand.event? = some (.readInterrupt true) →
    reached.turn = machine.turn ∧ after.phase = .active
  size : reached.cells.size = machine.cells.size
  taken : ∀ mutex < machine.cells.size,
    reached.isTaken mutex = if mutex ∈ grip.mutexes then grip.taken else machine.isTaken mutex

/-- The step is a move of the strand, or the strand cannot go on and gives up its turn. -/
def Advances (machine : Machine σ) (me : ThreadId) (strand : Strand) (actor : ThreadId)
    (reached : Machine σ) : Prop :=
  (strand.event? = none ∧ reached = { machine with turn := none }) ∨
    ∃ after grip, strand.Move machine.isTaken grip after ∧
      Advance machine me strand actor after grip reached

theorem Midway.gripped (midway : Midway machine actor event? .none reached) (grip : Grip) :
    Midway machine actor event? grip (reached.gripped grip) := by
  obtain ⟨cells, same, size, found⟩ := gripped_eq grip reached
  have taken : ∀ mutex < machine.cells.size, (reached.gripped grip).isTaken mutex =
      if mutex ∈ grip.mutexes then grip.taken else machine.isTaken mutex := by
    intro mutex within
    rw [found mutex (within.trans_eq midway.size.symm), midway.taken mutex within]
    rfl
  rw [same] at taken ⊢
  exact ⟨midway.program, midway.gate, midway.succeeds, midway.strands, midway.turn,
    size.trans midway.size, taken⟩

private theorem Midway.get?_put (midway : Midway machine actor event? grip reached) (me : ThreadId)
    (strand : Strand) (other : ThreadId) :
    (reached.put me strand).strands.get? other =
      if other.lineage = me.lineage then some strand else machine.strands.get? other := by
  rw [Machine.get?_put, midway.strands]

private theorem Midway.larger (midway : Midway machine actor event? grip reached) (me : ThreadId)
    (strand : Strand) : machine.strands.size ≤ (reached.put me strand).strands.size := by
  rw [← midway.strands]
  exact Table.size_le_insert reached.strands me strand

/-- The strand goes on with its turn. -/
theorem Midway.put (midway : Midway machine actor strand.event? grip reached)
    (turn : machine.turn = some me) (same : actor.lineage = me.lineage)
    (host : after.host = strand.host)
    (active : after.phase = .active) (stays : strand.event? ≠ some .exit)
    (runs : reached.gate.model.threads.state? actor = some .running) :
    Advance machine me strand actor after grip (reached.put me after) where
  program := midway.program
  gate := midway.gate
  succeeds := midway.succeeds
  host := host
  started := (Strand.underway_of_active active).1
  exits := fun exits => absurd exits stays
  bare := fun ended => absurd ended (Strand.underway_of_active active).2
  own := (midway.get?_put me after me).trans (if_pos rfl)
  others := fun other different =>
    Or.inl ((midway.get?_put me after other).trans (if_neg different))
  larger := midway.larger me after
  turn := by
    intro next given
    obtain rfl := Option.some.inj (turn.symm.trans (midway.turn.symm.trans given))
    exact (RunStates.state?_congr _ same.symm).trans runs
  keeps := fun _ => ⟨midway.turn, active⟩
  size := midway.size
  taken := midway.taken

/-- The strand hands its turn over. -/
theorem Midway.handOver (midway : Midway machine actor strand.event? grip reached)
    (host : after.host = strand.host) (started : after.phase ≠ .unstarted)
    (exits : strand.event? = some .exit → after.phase = .ended)
    (bare : after.phase = .ended → after.guards = [])
    (unread : strand.event? ≠ some (.readInterrupt true)) :
    Advance machine me strand actor after grip (reached.put me after).handOver where
  program := midway.program
  gate := midway.gate
  succeeds := midway.succeeds
  host := host
  started := started
  exits := exits
  bare := bare
  own := (midway.get?_put me after me).trans (if_pos rfl)
  others := fun other different =>
    Or.inl ((midway.get?_put me after other).trans (if_neg different))
  larger := midway.larger me after
  turn := by
    intro next turn
    rw [Machine.handOver] at turn
    dsimp only at turn
    split at turn
    · cases turn
    · exact RunStates.state?_of_running? turn
  keeps := fun read => absurd read unread
  size := midway.size
  taken := midway.taken

theorem Midway.call (midway : Midway machine actor none grip reached) {event : Event}
    {reply : Reply} (succeeded : (machine.gate.model.step actor event).1 = .ok reply) :
    Midway machine actor (some event) grip
      { reached with gate := machine.gate.reported actor event } where
  program := midway.program
  gate := rfl
  succeeds := by
    rintro _ ⟨⟩
    exact ⟨reply, succeeded⟩
  strands := midway.strands
  turn := midway.turn
  size := midway.size
  taken := midway.taken

omit [DecisionSource σ] in
theorem gate_unwind (machine : Machine σ) (me : ThreadId) (strand : Strand) :
    (machine.unwind me strand).gate = machine.gate := by
  obtain ⟨cells, same, -⟩ := gripped_eq (.free strand.guards)
    (machine.put me { strand with phase := .ended, code := [], guards := [] })
  change ((machine.put me _).gripped (.free strand.guards)).gate = machine.gate
  rw [same]
  rfl

omit [DecisionSource σ] in
/-- A panic that is not for a failure is one. -/
theorem failure_of_panicked (machine : Machine σ) (me : ThreadId) (strand : Strand)
    {payload : Payload} (own : payload.isAbort = false) :
    (machine.panicked me strand payload).gate.failure ≠ none := by
  rw [panicked, own, if_neg Bool.false_ne_true, gate_unwind]
  exact Option.some_ne_none _

omit [DecisionSource σ] in
/-- A panic does not clear a failure. -/
theorem failure_before_panic {payload : Payload}
    (passed : (machine.panicked me strand payload).gate.failure = none) :
    machine.gate.failure = none := by
  by_cases abort : payload.isAbort = true
  · rw [panicked, if_pos abort, gate_unwind] at passed
    exact passed
  · have own : payload.isAbort = false := eq_false_of_ne_true abort
    exact absurd passed (failure_of_panicked machine me strand own)

omit [DecisionSource σ] in
private theorem failure_of_halted {halt : Halt}
    (passed : (machine.halted me strand halt).gate.failure = none) :
    machine.gate.failure = none := by
  cases halt with
  | fault fault => exact failure_before_panic passed
  | violation violation => exact failure_before_panic passed

omit [DecisionSource σ] in
/-- If the execution has not failed after a call, the call did not fail it. -/
theorem failure_of_after {α : Type} {served : Served σ α} {proceed : Machine σ → α → Machine σ}
    (kept : ∀ machine value, (proceed machine value).gate = machine.gate)
    (passed : (machine.after me strand served proceed).gate.failure = none) :
    served.gate.failure = none := by
  obtain ⟨answer, ring, gate⟩ := served
  match answer with
  | .returned (.ok value) =>
      have same : (proceed { machine with gate := gate } value).gate = gate := kept _ value
      exact (congrArg Gate.failure same).symm.trans passed
  | .returned (.error halt) => exact failure_of_halted passed
  | .asleep => exact passed

/-! ## Calls -/

/-- A strand that reports an action goes on if its thread is still the running one, and waits
otherwise. -/
theorem Acting.act (acting : machine.Acting me strand actor) {action : Action}
    (event : strand.event? = some (.act action)) {before : Machine σ}
    (midway : Midway machine actor none grip before) (going : Strand)
    (host : going.host = strand.host) (active : going.phase = .active)
    (passed : (before.after me going (before.gate.act strand.host action)
      fun machine _ => machine.put me going).gate.failure = none) :
    ∃ after, after.code = going.code ∧ after.guards = going.guards ∧
      Advance machine me strand actor after grip
        (before.after me going (before.gate.act strand.host action)
          fun machine _ => machine.put me going) := by
  have gate : before.gate = machine.gate := midway.gate
  rw [gate] at passed ⊢
  have unfailed : (machine.gate.act strand.host action).gate.failure = none := by
    refine failure_of_after ?_ passed
    exact fun _ _ => rfl
  obtain ⟨schedule, succeeded, served⟩ :=
    acting.ready.act acting.carries acting.runs unfailed
  have ready : (machine.gate.reported actor (.act action)).Ready :=
    acting.ready.ready_reported acting.carries acting.runs (by simp)
  have called := midway.call succeeded
  rw [← event] at called
  have stays : strand.event? ≠ some .exit := Strand.event?_ne_of_reports event (by simp)
  rw [served, Gate.look_turn_of_unfailed ready.unfailed]
  by_cases runs : (machine.gate.reported actor (.act action)).model.threads.isRunning actor = true
  · rw [if_pos runs]
    have running := RunStates.isRunning_iff.1 runs
    exact ⟨going, rfl, rfl, called.put acting.turn acting.same host active stays running⟩
  · rw [if_neg runs]
    let resting : Strand := { going with phase := .waiting }
    have started : resting.phase ≠ .unstarted ∧ resting.phase ≠ .ended :=
      Strand.underway_of_waiting rfl
    refine ⟨resting, rfl, rfl, called.handOver host started.1 ?_ ?_ ?_⟩
    · exact fun exits => absurd exits stays
    · exact fun ended => absurd ended started.2
    · exact Strand.event?_ne_of_reports event (by simp)

/-- Reading the interrupt flag leaves the turn alone. -/
theorem Acting.readInterrupt (acting : machine.Acting me strand actor) {clear : Bool}
    (event : strand.event? = some (.readInterrupt clear)) :
    machine.gate.readInterrupt strand.host clear =
        Gate.returning (machine.gate.model.interrupted.contains actor)
          (machine.gate.reported actor (.readInterrupt clear)) ∧
      Midway machine actor strand.event? .none
        { machine with gate := machine.gate.reported actor (.readInterrupt clear) } ∧
      (machine.gate.reported actor (.readInterrupt clear)).model.threads.state? actor =
        some .running := by
  have live := acting.ready.live acting.carries
  have stepped : (machine.gate.model.step actor (.readInterrupt clear)).1 =
      .ok (.flag (machine.gate.model.interrupted.contains actor)) := by
    rw [Scheduler.step, Scheduler.ifLive, if_pos live]
    rfl
  have reported := acting.ready.coherent.reported acting.runs (.readInterrupt clear)
  rw [Scheduler.Reported, stepped] at reported
  refine ⟨acting.ready.readInterrupt acting.carries clear, ?_, reported.2⟩
  rw [event]
  exact (Midway.refl machine actor).call stepped

/-- A strand that announces a child goes on, and the child is a strand from then on. -/
theorem Acting.spawn (acting : machine.Acting me strand actor) {key : String} {site : Site}
    {rest : List Task} (fresh : ∀ thread : ThreadId,
      thread.lineage = actor.lineage ++ [machine.gate.model.nextNumber actor] →
        machine.strands.get? thread = none)
    (active : strand.phase = .active) (code : strand.code = .run (.use (.spawn key site)) :: rest)
    (quiet : Quiet rest) :
    machine.Advances me strand actor (machine.spawn me strand rest key site) := by
  have event : strand.event? = some .announce := Strand.event?_of_task active code
  have live := acting.ready.live acting.carries
  have stepped : (machine.gate.model.step actor .announce).1 =
      .ok (.announced (.child actor (machine.gate.model.nextNumber actor))) := by
    rw [Scheduler.step, Scheduler.ifLive, if_pos live]
    rfl
  have reported := acting.ready.coherent.reported acting.runs .announce
  rw [Scheduler.Reported, stepped] at reported
  have called := (Midway.refl machine actor).call stepped
  rw [← event] at called
  let child : ThreadId := .child actor (machine.gate.model.nextNumber actor)
  let announced : Machine σ := { machine with gate := machine.gate.reported actor .announce }
  let after : Strand :=
    { strand with
      code := .act (.yield site) :: .keep key child ::
        .log (.spawn key site) (some child.name) :: rest }
  have reached : machine.spawn me strand rest key site =
      (announced.put child (machine.newcomer key)).put me after := by
    rw [Machine.spawn, acting.ready.announce acting.carries]
    rfl
  have grows : machine.strands.size < ((announced.put child (machine.newcomer key)).put me
      after).strands.size := by
    have inserted := Table.size_insert_new _ (fresh child rfl) (machine.newcomer key)
    have kept := Table.size_le_insert (machine.strands.insert child (machine.newcomer key)) me after
    change _ < ((machine.strands.insert child (machine.newcomer key)).insert me after).size
    omega
  rw [reached]
  refine Or.inr ⟨after, .none, ?_, ?_⟩
  · refine .other (.quiet ?_) (.quiet ?_) rfl ?_
    · rw [code]
      exact quiet.cons rfl
    · exact ((quiet.cons rfl).cons rfl).cons rfl
    · intro other same
      rw [event] at same
      cases same
      rfl
  constructor
  case program => exact called.program
  case gate => exact called.gate
  case succeeds => exact called.succeeds
  case host => rfl
  case started => exact (Strand.underway_of_active active).1
  case exits =>
    intro exits
    cases event.symm.trans exits
  case bare => exact fun ended => absurd ended (Strand.underway_of_active active).2
  case own => exact (Machine.get?_put _ me after me).trans (if_pos rfl)
  case others =>
    intro other different
    have found := Machine.get?_put (announced.put child (machine.newcomer key)) me after other
    rw [if_neg different, Machine.get?_put announced child (machine.newcomer key) other] at found
    by_cases born : other.lineage = child.lineage
    · rw [if_pos born] at found
      exact Or.inr ⟨event, born, grows, key, found⟩
    · rw [if_neg born] at found
      exact Or.inl found
  case larger => exact Nat.le_of_lt grows
  case turn =>
    intro next turn
    obtain rfl := Option.some.inj (acting.turn.symm.trans turn)
    exact (RunStates.state?_congr _ acting.same.symm).trans reported.2
  case keeps => exact fun _ => ⟨rfl, active⟩
  case size => exact called.size
  case taken => exact called.taken

/-- A strand that has nothing left to do reports its exit. -/
theorem Acting.conclude (acting : machine.Acting me strand actor)
    (event : strand.event? = some .exit) (code : strand.code = []) (guards : strand.guards = [])
    (passed : (machine.conclude me strand).gate.failure = none) :
    machine.Advances me strand actor (machine.conclude me strand) := by
  have quiet : Quiet strand.code := by
    rw [code]
    exact quiet_nil
  have move : strand.Move machine.isTaken .none { strand with phase := .ended } := by
    refine .other (.quiet quiet) (.quiet quiet) rfl ?_
    intro other same
    rw [event] at same
    cases same
    rfl
  have started : Phase.ended ≠ .unstarted := by decide
  have unread : strand.event? ≠ some (.readInterrupt true) :=
    Strand.event?_ne_of_reports event (by simp)
  refine Or.inr ⟨_, .none, move, ?_⟩
  unfold Machine.conclude at passed ⊢
  by_cases root : me.isRoot = true
  · simp only [root, if_true] at passed ⊢
    obtain ⟨schedule, succeeded, served⟩ :=
      acting.ready.finish acting.carries acting.runs passed
    have called := (Midway.refl machine actor).call succeeded
    rw [← event] at called
    have gate : ((machine.put me { strand with phase := .ended }).gate.finish strand.host).gate =
        machine.gate.reported actor .exit := congrArg Served.gate served
    rw [gate]
    exact called.handOver rfl started (fun _ => rfl) (fun _ => guards) unread
  · simp only [root] at passed ⊢
    obtain ⟨schedule, succeeded, served⟩ := acting.ready.exit acting.carries acting.runs passed
    have called := (Midway.refl machine actor).call succeeded
    rw [← event] at called
    have gate : ((machine.put me { strand with phase := .ended }).gate.exit strand.host).gate =
        machine.gate.reported actor .exit := congrArg Served.gate served
    rw [if_neg Bool.false_ne_true, gate]
    have left : Midway machine actor strand.event? .none
        { machine with
          results := machine.results.insert me strand.acc
          gate := machine.gate.reported actor .exit } :=
      ⟨called.program, called.gate, called.succeeds, called.strands, called.turn, called.size,
        called.taken⟩
    exact left.handOver rfl started (fun _ => rfl) (fun _ => guards) unread

/-- A strand that unwinds though the execution has not failed frees its data locks. -/
theorem advances_unwind (machine : Machine σ) (me actor : ThreadId) (quiet : Quiet strand.code)
    (silent : strand.event? = none) :
    machine.Advances me strand actor (machine.unwind me strand) := by
  let ended : Strand := { strand with phase := .ended, code := [], guards := [] }
  obtain ⟨cells, same, size, found⟩ :=
    gripped_eq (.free strand.guards) (machine.put me ended)
  have reached : machine.unwind me strand =
      ({ machine with cells := cells }.put me ended).handOver := congrArg Machine.handOver same
  rw [same] at found
  have midway : Midway machine actor strand.event? (.free strand.guards)
      { machine with cells := cells } := by
    rw [silent]
    exact ⟨rfl, rfl, nofun, rfl, rfl, size, found⟩
  rw [reached]
  refine Or.inr ⟨ended, _, .unwind quiet silent rfl rfl rfl, midway.handOver rfl ?_ ?_ ?_ ?_⟩
  · exact (by decide : Phase.ended ≠ .unstarted)
  · exact fun _ => rfl
  · exact fun _ => rfl
  · exact Strand.event?_ne_of_silent silent _

end Machine

end ScheduleSearch
