import ScheduleSearch.Proofs.Cooperative.Steps

/-!
# Operations, instructions and tasks

What the single operations, instructions and tasks do, one case for each: they are moves of the
strand that carries them out.
-/

namespace ScheduleSearch.Machine

variable {σ : Type} [DecisionSource σ] {machine reached : Machine σ} {me actor : ThreadId}
  {strand after : Strand} {rest : List Task}

/-- A strand that calls nobody and changes no data lock goes on. -/
private theorem Acting.goesOn (acting : machine.Acting me strand actor)
    (silent : strand.event? = none) (quiet : Quiet strand.code)
    (midway : Midway machine actor none .none reached) (opens : Opening strand.guards after.code)
    (guards : after.guards = strand.guards) (host : after.host = strand.host)
    (active : after.phase = .active) :
    machine.Advances me strand actor (reached.put me after) := by
  have runs : reached.gate.model.threads.state? actor = some .running := by
    rw [midway.gate]
    exact acting.runs
  have stays := Strand.event?_ne_of_silent silent .exit
  rw [← silent] at midway
  refine Or.inr ⟨after, .none, .other (.quiet quiet) opens guards ?_,
    midway.put acting.turn acting.same host active stays runs⟩
  intro event reported
  cases silent.symm.trans reported

/-- A strand that reads its interrupt flag goes on. -/
private theorem Acting.tells (acting : machine.Acting me strand actor) {clear : Bool}
    (event : strand.event? = some (.readInterrupt clear))
    (opening : Opening strand.guards strand.code) (opens : Opening strand.guards after.code)
    (guards : after.guards = strand.guards) (host : after.host = strand.host)
    (active : after.phase = .active) :
    machine.Advances me strand actor
      ({ machine with gate := machine.gate.reported actor (.readInterrupt clear) }.put me
        after) := by
  obtain ⟨-, called, runs⟩ := acting.readInterrupt event
  have stays : strand.event? ≠ some .exit := Strand.event?_ne_of_reports event (by simp)
  refine Or.inr ⟨after, .none, .other opening opens guards ?_,
    called.put acting.turn acting.same host active stays runs⟩
  intro other same
  rw [event] at same
  cases same
  rfl

omit [DecisionSource σ] in
private theorem isTaken_modify (machine : Machine σ) (mutex : Nat) (change : Int64 → Int64)
    (other : Nat) :
    { machine with cells := machine.cells.modify mutex fun cell => cell.modify change }.isTaken
        other = machine.isTaken other := by
  rw [isTaken, isTaken, Array.getElem?_modify]
  split
  next here =>
    cases machine.cells[other]? <;> rfl
  next => rfl

/-- An operation that needs no call is a plan for the rest of the code. -/
theorem Acting.begin (acting : machine.Acting me strand actor) (fresh : ∀ thread : ThreadId,
      thread.lineage = actor.lineage ++ [machine.gate.model.nextNumber actor] →
        machine.strands.get? thread = none)
    (active : strand.phase = .active) {operation : Operation}
    (code : strand.code = .run (.use operation) :: rest) (quiet : Quiet strand.code)
    (passed : (machine.begin me strand rest operation).gate.failure = none) :
    machine.Advances me strand actor (machine.begin me strand rest operation) := by
  have own := quiet
  rw [code, quiet_cons] at own
  obtain ⟨cooperative, calm⟩ := own
  have event := Strand.event?_of_task active code
  have here := Midway.refl machine actor
  match operation with
  | .yield _ | .park =>
      exact acting.goesOn event quiet here (.quiet ((calm.cons rfl).cons rfl)) rfl rfl active
  | .report action =>
      have planned : Quiet (.act action :: .log (.report action) none :: rest) :=
        (calm.cons rfl).cons cooperative
      exact acting.goesOn event quiet here (.quiet planned) rfl rfl active
  | .current =>
      have answered : machine.begin me strand rest .current =
          machine.put me
            { strand with
              code :=
                .log .current (some (actor.name ++ " " ++ toString actor.depth)) :: rest } := by
        unfold Machine.begin
        rw [Gate.current_of_caller acting.carries]
        rfl
      rw [answered]
      exact acting.goesOn event quiet here (.quiet (calm.cons rfl)) rfl rfl active
  | .interrupted clear =>
      unfold Machine.begin
      dsimp only
      rw [(acting.readInterrupt event).1]
      exact acting.tells event (.quiet quiet) (.quiet (calm.cons rfl)) rfl rfl active
  | .load index => exact acting.goesOn event quiet here (.quiet (calm.cons rfl)) rfl rfl active
  | .store index =>
      refine acting.goesOn event quiet ?_ (.quiet (calm.cons rfl)) rfl rfl active
      exact Midway.of_same actor rfl rfl rfl rfl rfl
  | .spawn key site => exact acting.spawn fresh active code calm
  | .join key | .joinTimed key =>
      unfold Machine.begin
      dsimp only
      cases machine.handles.get? key with
      | none => exact acting.goesOn event quiet here (.quiet (calm.cons rfl)) rfl rfl active
      | some joinee =>
          refine acting.goesOn event quiet ?_ (.quiet ((calm.cons rfl).cons rfl)) rfl rfl active
          exact Midway.of_same actor rfl rfl rfl rfl rfl
  | .finished key =>
      unfold Machine.begin
      dsimp only
      cases machine.handles.get? key with
      | none => exact acting.goesOn event quiet here (.quiet (calm.cons rfl)) rfl rfl active
      | some joinee =>
          exact acting.goesOn event quiet here (.quiet (calm.cons rfl)) rfl rfl active
  | .unpark key | .interrupt key =>
      unfold Machine.begin
      dsimp only
      cases machine.spawned.get? key with
      | none => exact acting.goesOn event quiet here (.quiet (calm.cons rfl)) rfl rfl active
      | some thread =>
          exact acting.goesOn event quiet here (.quiet ((calm.cons rfl).cons rfl)) rfl rfl active
  | .lock mutex site => exact acting.goesOn event quiet here (.lock (calm.cons rfl)) rfl rfl active
  | .unlock mutex =>
      unfold Machine.begin guarded
      dsimp only
      split
      next held =>
        have member := List.contains_iff_mem.1 held
        exact acting.goesOn event quiet here (.drop member (calm.cons rfl)) rfl rfl active
      next => exact acting.goesOn event quiet here (.quiet (calm.cons rfl)) rfl rfl active
  | .wait mutex timed =>
      unfold Machine.begin guarded
      dsimp only
      split
      next held =>
        have member := List.contains_iff_mem.1 held
        exact acting.goesOn event quiet here (.wait member calm) rfl rfl active
      next => exact acting.goesOn event quiet here (.quiet (calm.cons rfl)) rfl rfl active
  | .notify mutex | .notifyAll mutex =>
      unfold Machine.begin guarded
      dsimp only
      split
      · exact acting.goesOn event quiet here (.quiet ((calm.cons rfl).cons rfl)) rfl rfl active
      · exact acting.goesOn event quiet here (.quiet (calm.cons rfl)) rfl rfl active
  | .get mutex =>
      unfold Machine.begin
      dsimp only
      split
      · exact acting.goesOn event quiet here (.quiet (calm.cons rfl)) rfl rfl active
      · exact acting.goesOn event quiet here (.quiet (calm.cons rfl)) rfl rfl active
  | .set mutex =>
      unfold Machine.begin
      dsimp only
      split
      · refine acting.goesOn event quiet ?_ (.quiet (calm.cons rfl)) rfl rfl active
        refine ⟨rfl, rfl, nofun, rfl, rfl, Array.size_modify, fun other _ => ?_⟩
        exact isTaken_modify machine mutex (fun _ => strand.acc) other
      · exact acting.goesOn event quiet here (.quiet (calm.cons rfl)) rfl rfl active
  | .abort fault => cases passed

/-- Instructions either use a primitive or only change the rest of the code, unless they
panic. -/
theorem Acting.execute (acting : machine.Acting me strand actor) (fresh : ∀ thread : ThreadId,
      thread.lineage = actor.lineage ++ [machine.gate.model.nextNumber actor] →
        machine.strands.get? thread = none)
    (active : strand.phase = .active) {instruction : Instruction}
    (code : strand.code = .run instruction :: rest) (quiet : Quiet strand.code)
    (passed : (machine.execute me strand rest instruction).gate.failure = none) :
    machine.Advances me strand actor (machine.execute me strand rest instruction) := by
  have own := quiet
  rw [code, quiet_cons] at own
  obtain ⟨cooperative, calm⟩ := own
  have event := Strand.event?_of_task active code
  have here := Midway.refl machine actor
  match instruction with
  | .const value => exact acting.goesOn event quiet here (.quiet calm) rfl rfl active
  | .add value => exact acting.goesOn event quiet here (.quiet calm) rfl rfl active
  | .branch condition body =>
      have opens : Quiet (if condition.holds strand.acc machine.run then body.map .run ++ rest
          else rest) := by
        split
        · exact calm.run_append cooperative
        · exact calm
      exact acting.goesOn event quiet here (.quiet opens) rfl rfl active
  | .loop condition body =>
      exact acting.goesOn event quiet here (.quiet (calm.cons cooperative)) rfl rfl active
  | .times count body =>
      exact acting.goesOn event quiet here (.quiet (calm.cons cooperative)) rfl rfl active
  | .check expected text =>
      unfold Machine.execute at passed ⊢
      dsimp only at passed ⊢
      split at passed
      next holds =>
        rw [if_pos holds]
        exact acting.goesOn event quiet here (.quiet calm) rfl rfl active
      next => exact absurd passed (failure_of_panicked machine me strand rfl)
  | .panic payload =>
      by_cases abort : payload.isAbort = true
      · have unwound : machine.execute me strand rest (.panic payload) =
            machine.unwind me strand := if_pos abort
        rw [unwound]
        exact advances_unwind machine me actor quiet event
      · have own : payload.isAbort = false := eq_false_of_ne_true abort
        exact absurd passed (failure_of_panicked machine me strand own)
  | .use operation => exact acting.begin fresh active code quiet passed

/-- A strand that drops a guard frees the data lock and leaves the monitor. -/
theorem Acting.drop (acting : machine.Acting me strand actor) (active : strand.phase = .active)
    {mutex : Nat} (held : mutex ∈ strand.guards) (calm : Quiet rest)
    (opening : Opening strand.guards strand.code)
    (event : strand.event? = some (.act (.leave (lockOf mutex))))
    (passed : (machine.carryOut me strand rest (.drop mutex)).gate.failure = none) :
    machine.Advances me strand actor (machine.carryOut me strand rest (.drop mutex)) := by
  have freed := (Midway.refl machine actor).gripped (.free [mutex])
  obtain ⟨after, code, guards, advance⟩ := acting.act event freed
    { strand with code := rest, guards := strand.guards.erase mutex } rfl active passed
  refine Or.inr ⟨after, _, .drop opening held ?_ guards event, advance⟩
  rw [code]
  exact calm

/-- After an action the strand has the rest of its code to run. -/
theorem Acting.carryOut_act (acting : machine.Acting me strand actor)
    (active : strand.phase = .active) {action : Action}
    (event : strand.event? = some (.act action))
    (passed : (machine.carryOut me strand rest (.act action)).gate.failure = none) :
    ∃ after, after.code = rest ∧ after.guards = strand.guards ∧
      Advance machine me strand actor after .none
        (machine.carryOut me strand rest (.act action)) :=
  acting.act event (Midway.refl machine actor) { strand with code := rest } rfl active passed

/-- A wait is begun unless the thread is interrupted: the data lock is freed. -/
theorem Acting.beginWait (acting : machine.Acting me strand actor)
    (active : strand.phase = .active) {mutex : Nat} {timed : Bool} {operation : Operation}
    (code : strand.code = .beginWait mutex timed operation :: rest)
    (held : mutex ∈ strand.guards) (calm : Quiet rest) :
    machine.Advances me strand actor
      (machine.carryOut me strand rest (.beginWait mutex timed operation)) := by
  have event := Strand.event?_of_task active code
  have opening : Opening strand.guards strand.code := by
    rw [code]
    exact .wait held calm
  obtain ⟨answered, called, runs⟩ := acting.readInterrupt event
  unfold Machine.carryOut
  dsimp only
  rw [answered]
  cases isSet : machine.gate.model.interrupted.contains actor with
  | true => exact acting.tells event opening (.quiet (calm.cons rfl)) rfl rfl active
  | false =>
      have freed := called.gripped (.free [mutex])
      have stays : strand.event? ≠ some .exit := Strand.event?_ne_of_reports event (by simp)
      let lent : Strand :=
        { strand with
          code := .act (.wait (lockOf mutex) timed) :: .relock mutex :: .endWait operation :: rest }
      exact Or.inr ⟨lent, _, .lend held calm code rfl rfl event,
        freed.put acting.turn acting.same rfl active stays runs⟩

/-- A strand gets a guard of a mutex only if the data lock is free; else the execution fails. -/
theorem Acting.tryLock (acting : machine.Acting me strand actor)
    (active : strand.phase = .active) {mutex : Nat} {site : Site}
    (code : strand.code = .tryLock mutex site :: rest) (calm : Quiet rest)
    (passed : (machine.tryLock me strand rest mutex site).gate.failure = none) :
    machine.Advances me strand actor (machine.tryLock me strand rest mutex site) := by
  have silent := Strand.event?_of_task active code
  unfold Machine.tryLock at passed ⊢
  by_cases taken : machine.isTaken mutex = true
  · rw [if_pos taken] at passed
    cases failure_before_panic passed
  · rw [if_neg taken]
    have gripped := (Midway.refl machine actor).gripped (.take [mutex])
    rw [show none = strand.event? from silent.symm] at gripped
    have stays := Strand.event?_ne_of_silent silent .exit
    exact Or.inr ⟨_, _, .tryLock calm (eq_false_of_ne_true taken) code rfl rfl silent,
      gripped.put acting.turn acting.same rfl active stays acting.runs⟩

private theorem Acting.relock (acting : machine.Acting me strand actor)
    (active : strand.phase = .active) {mutex : Nat} {operation : Operation}
    (code : strand.code = .relock mutex :: .endWait operation :: rest)
    (held : mutex ∈ strand.guards) (calm : Quiet rest) :
    machine.Advances me strand actor
      (machine.carryOut me strand (.endWait operation :: rest) (.relock mutex)) := by
  have silent := Strand.event?_of_task active code
  unfold Machine.carryOut
  dsimp only
  split
  · exact Or.inl ⟨silent, rfl⟩
  · have gripped := (Midway.refl machine actor).gripped (.take [mutex])
    rw [show none = strand.event? from silent.symm] at gripped
    have stays := Strand.event?_ne_of_silent silent .exit
    let back : Strand := { strand with code := .endWait operation :: rest }
    exact Or.inr ⟨back, _, .relock held calm code rfl rfl silent,
      gripped.put acting.turn acting.same rfl active stays acting.runs⟩

/-- Where no primitive that concerns a lock is half done, a task leads to no lock. -/
theorem Acting.carryOut_of_quiet (acting : machine.Acting me strand actor)
    (fresh : ∀ thread : ThreadId,
      thread.lineage = actor.lineage ++ [machine.gate.model.nextNumber actor] →
        machine.strands.get? thread = none)
    (active : strand.phase = .active) {task : Task} (code : strand.code = task :: rest)
    (quiet : Quiet strand.code)
    (passed : (machine.carryOut me strand rest task).gate.failure = none) :
    machine.Advances me strand actor (machine.carryOut me strand rest task) := by
  have own := quiet
  rw [code, quiet_cons] at own
  obtain ⟨cooperative, calm⟩ := own
  have event := Strand.event?_of_task active code
  have here := Midway.refl machine actor
  match task with
  | .run instruction => exact acting.execute fresh active code quiet passed
  | .round condition body rounds =>
      unfold Machine.carryOut at passed ⊢
      dsimp only at passed ⊢
      split at passed
      next isOver =>
        rw [if_pos isOver]
        exact acting.goesOn event quiet here (.quiet calm) rfl rfl active
      next goesOn =>
        rw [if_neg goesOn]
        split at passed
        next below =>
          rw [if_pos below]
          have next : Quiet (.round condition body (rounds + 1) :: rest) := calm.cons cooperative
          exact acting.goesOn event quiet here (.quiet (next.run_append cooperative)) rfl rfl active
        next => exact absurd passed (failure_of_panicked machine me strand rfl)
  | .again 0 body => exact acting.goesOn event quiet here (.quiet calm) rfl rfl active
  | .again (count + 1) body =>
      have next : Quiet (.again count body :: rest) := calm.cons cooperative
      exact acting.goesOn event quiet here (.quiet (next.run_append cooperative)) rfl rfl active
  | .act action =>
      obtain ⟨after, goes, guards, advance⟩ := acting.carryOut_act active event passed
      refine Or.inr ⟨after, _, .other (.quiet quiet) (.quiet ?_) guards ?_, advance⟩
      · rw [goes]
        exact calm
      · intro other same
        rw [event] at same
        cases same
        exact cooperative
  | .endWait operation =>
      unfold Machine.carryOut
      dsimp only
      rw [(acting.readInterrupt event).1]
      exact acting.tells event (.quiet quiet) (.quiet (calm.cons rfl)) rfl rfl active
  | .keep key child =>
      refine acting.goesOn event quiet ?_ (.quiet calm) rfl rfl active
      exact Midway.of_same actor rfl rfl rfl rfl rfl
  | .takeResult joinee operation =>
      unfold Machine.carryOut
      dsimp only
      cases machine.results.get? joinee with
      | none => exact acting.goesOn event quiet here (.quiet (calm.cons rfl)) rfl rfl active
      | some value =>
          refine acting.goesOn event quiet ?_ (.quiet (calm.cons rfl)) rfl rfl active
          exact Midway.of_same actor rfl rfl rfl rfl rfl
  | .takeTimed key joinee operation =>
      unfold Machine.carryOut
      dsimp only
      cases machine.results.get? joinee with
      | none =>
          refine acting.goesOn event quiet ?_ (.quiet (calm.cons rfl)) rfl rfl active
          exact Midway.of_same actor rfl rfl rfl rfl rfl
      | some value =>
          refine acting.goesOn event quiet ?_ (.quiet (calm.cons rfl)) rfl rfl active
          exact Midway.of_same actor rfl rfl rfl rfl rfl
  | .log operation result =>
      refine acting.goesOn event quiet ?_ (.quiet calm) rfl rfl active
      exact Midway.of_same actor rfl rfl rfl rfl rfl

/-- Every task is a move of the strand that carries it out. -/
theorem Acting.carryOut (acting : machine.Acting me strand actor) (fresh : ∀ thread : ThreadId,
      thread.lineage = actor.lineage ++ [machine.gate.model.nextNumber actor] →
        machine.strands.get? thread = none)
    (active : strand.phase = .active) {task : Task} (code : strand.code = task :: rest)
    (planned : Planned strand.guards strand.code)
    (passed : (machine.carryOut me strand rest task).gate.failure = none) :
    machine.Advances me strand actor (machine.carryOut me strand rest task) := by
  have event := Strand.event?_of_task active code
  have forms := planned
  rw [code] at forms
  cases forms with
  | opening opening =>
      have before : Opening strand.guards strand.code := code.symm ▸ opening
      cases opening with
      | quiet quiet =>
          rw [← code] at quiet
          exact acting.carryOut_of_quiet fresh active code quiet passed
      | @lock mutex site behind calm =>
          obtain ⟨after, goes, guards, advance⟩ := acting.carryOut_act active event passed
          exact Or.inr ⟨after, _, .approach calm code goes guards event, advance⟩
      | drop held calm => exact acting.drop active held calm before event passed
      | wait held calm => exact acting.beginWait active code held calm
  | @enter mutex site behind calm =>
      obtain ⟨after, goes, guards, advance⟩ := acting.carryOut_act active event passed
      exact Or.inr ⟨after, _, .enter calm code goes guards event, advance⟩
  | tryLock calm => exact acting.tryLock active code calm passed
  | @wait mutex timed operation behind held calm =>
      obtain ⟨after, goes, guards, advance⟩ := acting.carryOut_act active event passed
      exact Or.inr ⟨after, _, .wait held calm code goes guards event, advance⟩
  | relock held calm => exact acting.relock active code held calm

end ScheduleSearch.Machine
