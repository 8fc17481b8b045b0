import ScheduleSearch.Proofs.Exploration.Completeness

/-!
# Orders of events and decisions

No two runs of a search take the same decisions, but two of them can apply the same events in
the same order.  This happens only by a contested choice, at which a runnable thread wants a
lock that another thread holds: if that thread is chosen it is blocked again and the choice is
repeated, so the same thread may go on after one decision or after two.  Where no choice is
contested the thread that is chosen acts next, and the order of events shows every decision.
-/

namespace ScheduleSearch

/-- Some runnable thread wants to enter a lock that is held. -/
def Scheduler.isContested {σ : Type} (state : Scheduler σ) : Bool :=
  state.threads.runnable.any fun thread =>
    (state.monitors.entering? thread).any fun lock => (state.monitors.owner? lock).isSome

/-- Whether the choice that is left by an event is contested. -/
def Prepared.isContested {σ : Type} : Prepared σ → Bool
  | settled _ _ => false
  | choosing _ state => state.isContested

namespace EventProgram

variable {σ : Type} [DecisionSource σ]

/-- Whether some choice is contested in a run of at most the given number of events. -/
def contestedWithin : Nat → EventProgram → Scheduler σ → Bool
  | 0, _, _ => false
  | steps + 1, program, state =>
      match state.running? with
      | none => false
      | some actor =>
          let (event, rest) := program.next actor
          let (outcome, after) := state.step actor event
          (state.prepare actor event).isContested ||
            (Ending.of? outcome).isNone && contestedWithin steps rest after

/-- Whether some choice is contested in the run of the program under a source. -/
def isContested (program : EventProgram) (source : σ) (maxDecisions : Nat) : Bool :=
  program.contestedWithin program.steps
    ((Scheduler.fresh source maxDecisions).begin rootHost).2

end EventProgram

namespace Scheduler

variable {σ τ ρ : Type} [DecisionSource τ] [DecisionSource ρ] {state : Scheduler σ}

omit [DecisionSource τ] [DecisionSource ρ] in
private theorem unowned_of_calm (calm : state.isContested = false) {next : ThreadId} {lock : LockId}
    (runnable : state.threads.state? next = some .runnable)
    (enters : state.monitors.entering? next = some lock) :
    (state.monitors.monitorOf lock).owner = none := by
  obtain ⟨listed, member, same⟩ := RunStates.exists_mem_threadsWhere runnable
    (show RunState.runnable.isRunnable = true from rfl)
  have unhindered := List.any_eq_false.1 calm listed member
  rw [← state.monitors.entering?_congr same, enters, Option.any_some,
    MonitorTable.owner?_eq] at unhindered
  exact Option.not_isSome_iff_eq_none.1 unhindered

omit [DecisionSource τ] [DecisionSource ρ] in
/-- Whoever is chosen runs. -/
theorem Coherent.promote_of_calm (coherent : state.Coherent)
    (nobody : ∀ thread, state.threads.state? thread ≠ some .running)
    (calm : state.isContested = false) {next : ThreadId}
    (runnable : state.threads.state? next = some .runnable) :
    (state.promote next).1 = .ok true ∧ (state.promote next).2.Coherent ∧
      (state.promote next).2.threads.state? next = some .running := by
  rcases coherent.promote nobody runnable with
    ⟨monitors, -, effect, resumed⟩ | ⟨lock, enters, ⟨owner, held, -⟩, -⟩
  · rw [effect]
    exact ⟨rfl, resumed, (RunStates.state?_set_of_live runnable _ next).trans (if_pos rfl)⟩
  · rw [unowned_of_calm calm runnable enters] at held
    cases held

private theorem selected_once {choice : Choice} {source after : τ} {other behind : ρ}
    {first second : Leaf (Outcome ThreadId × Scheduler σ)}
    (leads : (state.selectTree choice).Leads source first after)
    (also : (state.selectTree choice).Leads other second behind) :
    first = second ∨ ∃ left right, first.outcome.1 = .ok left ∧ second.outcome.1 = .ok right ∧
      left.lineage ≠ right.lineage := by
  unfold selectTree at leads also
  split at leads
  next only shape =>
    rw [shape] at also
    cases leads
    cases also
    exact Or.inl rfl
  next several =>
    split at also
    next only shape => exact absurd shape (several only)
    next =>
      unfold askTree at leads also
      dsimp only at leads also
      split at leads
      next exceeded =>
        rw [if_pos exceeded] at also
        cases leads
        cases also
        exact Or.inl rfl
      next within =>
        rw [if_neg within] at also
        cases leads with
        | @decision _ _ _ _ _ _ position _ _ _ rest =>
            cases rest
            cases also with
            | @decision _ _ _ _ _ _ otherPosition _ _ _ otherRest =>
                cases otherRest
                by_cases same : position = otherPosition
                · subst same
                  exact Or.inl rfl
                · refine Or.inr ⟨_, _, rfl, rfl, fun lineages => same ?_⟩
                  exact (choice.same_at_iff position otherPosition).1
                    ((ThreadId.same_iff_lineage _ _).2 lineages)

private theorem selected_of_leads {choice : Choice} {source after : τ}
    {leaf : Leaf (Outcome ThreadId × Scheduler σ)} {next : ThreadId}
    (leads : (state.selectTree choice).Leads source leaf after)
    (chosen : leaf.outcome.1 = .ok next) :
    next ∈ choice.options ∧
      ∃ decisions, leaf.outcome.2 = { state with decisions := decisions } := by
  unfold selectTree at leads
  split at leads
  next only shape =>
    cases leads
    cases chosen
    rw [shape]
    exact ⟨List.mem_singleton_self _, _, rfl⟩
  next several =>
    unfold askTree at leads
    dsimp only at leads
    split at leads
    next exceeded =>
      cases leads
      cases chosen
    next within =>
      cases leads with
      | decision answered accepted rest =>
          cases rest
          cases chosen
          exact ⟨List.get_mem _ _, _, rfl⟩

/-- What comes of a selected thread that goes on. -/
def resumed : Outcome ThreadId × Scheduler σ → Outcome Schedule × Scheduler σ
  | (.error halt, asked) => (.error halt, asked)
  | (.ok next, asked) => (.ok (.resume next), (asked.promote next).2)

/-- A choice that is not contested takes one round. -/
theorem Coherent.picked_of_leads (coherent : state.Coherent)
    (nobody : ∀ thread, state.threads.state? thread ≠ some .running)
    (calm : state.isContested = false) {rounds : Nat} {label : String} {source after : τ}
    {leaf : Leaf (Outcome Schedule × Scheduler σ)}
    (someone : state.threads.runnable ≠ [])
    (leads : (pickTreeWithin (rounds + 1) state label).Leads source leaf after) :
    ∃ selected between,
      (state.selectTree (state.turn label someone)).Leads source selected between ∧
        leaf = ⟨selected.trace, resumed selected.outcome⟩ ∧
        ∀ next, selected.outcome.1 = .ok next →
          leaf.outcome.2.Coherent ∧ leaf.outcome.2.threads.state? next = some .running := by
  unfold pickTreeWithin at leads
  rw [dif_pos someone] at leads
  obtain ⟨⟨trace, outcome, asked⟩, between, second, early, late, rfl⟩ := leads.of_bind
  refine ⟨_, between, early, ?_⟩
  cases outcome with
  | error halt =>
      cases late
      refine ⟨?_, ?_⟩
      · rw [List.append_nil]
        rfl
      · intro next impossible
        cases impossible
  | ok next =>
      obtain ⟨member, decisions, same⟩ := selected_of_leads early rfl
      obtain rfl : asked = _ := same
      have runnable : state.threads.state? next = some .runnable := RunStates.mem_runnable member
      have settled :=
        (coherent.of_asked decisions state.source).promote_of_calm nobody calm runnable
      unfold promoteTree at late
      dsimp only at late
      unfold resumed
      dsimp only
      generalize Scheduler.promote _ next = promoted at late settled ⊢
      obtain ⟨verdict, reached⟩ := promoted
      obtain ⟨rfl, kept, runs⟩ := settled
      cases late
      rw [List.append_nil]
      refine ⟨rfl, ?_⟩
      rintro other ⟨rfl⟩
      exact ⟨kept, runs⟩

/-- What a choice that is not contested leads to is decided by the thread that goes on. -/
theorem Coherent.picked_once (coherent : state.Coherent)
    (nobody : ∀ thread, state.threads.state? thread ≠ some .running)
    (calm : state.isContested = false) {rounds : Nat} {label : String} {source after : τ}
    {other behind : ρ} {first second : Leaf (Outcome Schedule × Scheduler σ)}
    (leads : (pickTreeWithin rounds state label).Leads source first after)
    (also : (pickTreeWithin rounds state label).Leads other second behind) :
    first = second ∨ ∃ left right, first.outcome.1 = .ok (.resume left) ∧
      second.outcome.1 = .ok (.resume right) ∧ left.lineage ≠ right.lineage := by
  cases rounds with
  | zero =>
      cases leads
      cases also
      exact Or.inl rfl
  | succ rounds =>
      by_cases someone : state.threads.runnable ≠ []
      · obtain ⟨selected, _, early, rfl, -⟩ := coherent.picked_of_leads nobody calm someone leads
        obtain ⟨alternative, _, alsoEarly, rfl, -⟩ :=
          coherent.picked_of_leads nobody calm someone also
        rcases selected_once early alsoEarly with rfl | ⟨left, right, one, two, different⟩
        · exact Or.inl rfl
        · obtain ⟨trace, outcome, asked⟩ := selected
          obtain ⟨otherTrace, otherOutcome, otherAsked⟩ := alternative
          cases one
          cases two
          exact Or.inr ⟨left, right, rfl, rfl, different⟩
      · unfold pickTreeWithin at leads also
        rw [dif_neg someone] at leads also
        cases leads
        cases also
        exact Or.inl rfl

/-- A choice after which the run goes on has let a thread run. -/
theorem Coherent.resumes_of_leads (coherent : state.Coherent)
    (nobody : ∀ thread, state.threads.state? thread ≠ some .running)
    (calm : state.isContested = false) {rounds : Nat} {label : String} {source after : τ}
    {leaf : Leaf (Outcome Schedule × Scheduler σ)}
    (leads : (pickTreeWithin rounds state label).Leads source leaf after)
    (goesOn : endingOf leaf.outcome.1 = none) :
    ∃ next, leaf.outcome.1 = .ok (.resume next) ∧ leaf.outcome.2.Coherent ∧
      leaf.outcome.2.threads.state? next = some .running := by
  have stalls : endingOf state.stalled ≠ none := by
    unfold stalled
    split
    · nofun
    · split <;> nofun
  cases rounds with
  | zero =>
      cases leads
      exact absurd goesOn stalls
  | succ rounds =>
      by_cases someone : state.threads.runnable ≠ []
      · obtain ⟨⟨trace, outcome, asked⟩, -, -, rfl, runs⟩ :=
          coherent.picked_of_leads nobody calm someone leads
        cases outcome with
        | error halt => cases goesOn
        | ok next => exact ⟨next, rfl, runs next rfl⟩
      · unfold pickTreeWithin at leads
        rw [dif_neg someone] at leads
        cases leads
        exact absurd goesOn stalls

/-- What an event leads to, if no choice is contested, is decided by the thread that goes on. -/
theorem Coherent.stepped_once (coherent : state.Coherent) {actor : ThreadId}
    (runs : state.threads.state? actor = some .running) {event : Event}
    (calm : (state.prepare actor event).isContested = false) {source after : τ}
    {other behind : ρ} {first second : Leaf (Outcome Reply × Scheduler σ)}
    (leads : (state.stepTree actor event).Leads source first after)
    (also : (state.stepTree actor event).Leads other second behind) :
    first = second ∨ ∃ left right, first.outcome.1 = .ok (.schedule (.resume left)) ∧
      second.outcome.1 = .ok (.schedule (.resume right)) ∧ left.lineage ≠ right.lineage := by
  have live : state.isLive actor = true := isLive_iff.2 ⟨_, runs⟩
  have ready := coherent.ready runs event
  rw [stepTree, if_pos live] at leads also
  cases shape : state.prepare actor event with
  | settled outcome reached =>
      rw [shape] at leads also
      cases leads
      cases also
      exact Or.inl rfl
  | choosing label reached =>
      rw [shape] at leads also calm ready
      obtain ⟨picked, early, rfl⟩ := leads.of_map
      obtain ⟨alternative, alsoEarly, rfl⟩ := also.of_map
      rcases ready.1.picked_once ready.2 calm early alsoEarly with
        rfl | ⟨left, right, one, two, different⟩
      · exact Or.inl rfl
      · refine Or.inr ⟨left, right, ?_, ?_, different⟩
        · dsimp only
          rw [one]
          rfl
        · dsimp only
          rw [two]
          rfl

/-- After an event with which the run goes on somebody runs, whom the answer names if it names
one. -/
theorem Coherent.goesOn_of_leads (coherent : state.Coherent) {actor : ThreadId}
    (runs : state.threads.state? actor = some .running) {event : Event}
    (calm : (state.prepare actor event).isContested = false) {source after : τ}
    {leaf : Leaf (Outcome Reply × Scheduler σ)}
    (leads : (state.stepTree actor event).Leads source leaf after)
    (goesOn : Ending.of? leaf.outcome.1 = none) :
    leaf.outcome.2.Coherent ∧
      (∃ next, leaf.outcome.2.threads.state? next = some .running) ∧
      ∀ next, leaf.outcome.1 = .ok (.schedule (.resume next)) →
        leaf.outcome.2.threads.state? next = some .running := by
  have live : state.isLive actor = true := isLive_iff.2 ⟨_, runs⟩
  have ready := coherent.ready runs event
  rw [stepTree, if_pos live] at leads
  cases shape : state.prepare actor event with
  | settled outcome reached =>
      rw [shape] at leads ready
      obtain ⟨kept, runsOn, settled⟩ := ready
      cases leads
      refine ⟨kept, ⟨actor, runsOn⟩, ?_⟩
      rintro next rfl
      exact (reached.threads.state?_congr settled).trans runsOn
  | choosing label reached =>
      rw [shape] at leads calm ready
      obtain ⟨picked, early, rfl⟩ := leads.of_map
      obtain ⟨next, resumes, kept, nextRuns⟩ :=
        ready.1.resumes_of_leads ready.2 calm early goesOn
      refine ⟨kept, ⟨next, nextRuns⟩, ?_⟩
      intro named same
      dsimp only at same
      rw [resumes] at same
      cases same
      exact nextRuns

end Scheduler

/-! ## Whole runs -/

private theorem Prepared.Alike.isContested {σ τ : Type} {prepared : Prepared σ} {source : τ}
    {twin : Prepared τ} (alike : prepared.Alike source twin) :
    prepared.isContested = twin.isContested := by
  cases alike with
  | settled outcome alike => rfl
  | @choosing label left _ right alike =>
      have held : ∀ lock, (left.monitors.owner? lock).isSome =
          (right.monitors.owner? lock).isSome := by
        obtain ⟨monitors, same, alike⟩ := alike.monitors
        intro lock
        rw [same]
        unfold MonitorTable.owner? MonitorTable.monitor?
        obtain ⟨unused, twinUnused⟩ | ⟨monitor, twin, found, twinFound, same⟩ := alike.cases lock
        · rw [unused, twinUnused]
        · rw [found, twinFound]
          exact same.isHeld
      unfold Prepared.isContested Scheduler.isContested
      simp only [alike.threads, alike.monitors.entering?, held]

namespace EventProgram

variable {σ τ ρ : Type} [DecisionSource τ] [DecisionSource ρ]

/-- The thread that runs reports the first event, unless the run is not finished. -/
private theorem head_of_leads {steps : Nat} {program : EventProgram} {state : Scheduler σ}
    (coherent : state.Coherent) {next : ThreadId}
    (runs : state.threads.state? next = some .running) {source after : τ}
    {leaf : Leaf ((History × Ending) × Scheduler σ)}
    (leads : (treeWithin steps program state).Leads source leaf after) :
    leaf.outcome.1.2 = .unfinished ∨ ∃ actor event rest,
      leaf.outcome.1.1 = (actor, event) :: rest ∧ actor.lineage = next.lineage := by
  cases steps with
  | zero =>
      cases leads
      exact Or.inl rfl
  | succ steps =>
      unfold treeWithin at leads
      split at leads
      next nobody =>
        cases leads
        exact Or.inl rfl
      next actor found =>
        have same := coherent.single actor next (RunStates.state?_of_running? found) runs
        obtain ⟨⟨trace, outcome, reached⟩, between, second, -, late, rfl⟩ := leads.of_bind
        dsimp only at late
        split at late
        next ending ended =>
          cases late
          exact Or.inr ⟨actor, _, _, rfl, same⟩
        next ongoing =>
          obtain ⟨rest, last, rfl⟩ := late.of_map
          exact Or.inr ⟨actor, _, _, rfl, same⟩

/-- Finished runs that go on with different threads have different orders of events. -/
theorem histories_differ {steps : Nat} {program : EventProgram} {left right : Scheduler σ}
    (leftCoherent : left.Coherent) {one : ThreadId}
    (leftRuns : left.threads.state? one = some .running)
    (rightCoherent : right.Coherent) {two : ThreadId}
    (rightRuns : right.threads.state? two = some .running) (different : one.lineage ≠ two.lineage)
    {source after : τ} {other behind : ρ} {first second : Leaf ((History × Ending) × Scheduler σ)}
    (leads : (treeWithin steps program left).Leads source first after)
    (also : (treeWithin steps program right).Leads other second behind)
    (finished : first.outcome.1.2 ≠ .unfinished) (alsoFinished : second.outcome.1.2 ≠ .unfinished) :
    first.outcome.1.1 ≠ second.outcome.1.1 := by
  obtain ⟨actor, event, events, history, actorIsOne⟩ :=
    (head_of_leads leftCoherent leftRuns leads).resolve_left finished
  obtain ⟨otherActor, otherEvent, otherEvents, otherHistory, actorIsTwo⟩ :=
    (head_of_leads rightCoherent rightRuns also).resolve_left alsoFinished
  intro same
  rw [history, otherHistory] at same
  obtain rfl : actor = otherActor := congrArg Prod.fst (List.cons.inj same).1
  exact different (actorIsOne.symm.trans actorIsTwo)

/-- If no choice of a run is contested, it is the only one with its order of events. -/
theorem leaf_of_history (steps : Nat) :
    ∀ (program : EventProgram) {left : Scheduler σ} {source after : τ} {right : Scheduler τ}
      {other behind : ρ} {first second : Leaf ((History × Ending) × Scheduler σ)},
      left.Coherent → left.Alike source right →
      (treeWithin steps program left).Leads source first after →
      (treeWithin steps program left).Leads other second behind →
      contestedWithin steps program right = false → first.outcome.1.2 ≠ .unfinished →
      second.outcome.1.2 ≠ .unfinished → first.outcome.1.1 = second.outcome.1.1 →
        first = second := by
  -- Up to an event the two runs are in the same state; the next actor tells which thread was
  -- let run after it, and so where the event led.
  induction steps with
  | zero =>
      intro program left source after right other behind first second _ _ leads _ _ finished
      cases leads
      exact absurd rfl finished
  | succ steps inductionHypothesis =>
      intro program left source after right other behind first second coherent alike leads also
        calm finished alsoFinished same
      have running : left.running? = right.running? := by
        unfold Scheduler.running?
        rw [alike.threads]
      unfold treeWithin at leads also
      unfold contestedWithin at calm
      rw [← running] at calm
      cases found : left.running? with
      | none =>
          rw [found] at leads
          cases leads
          exact absurd rfl finished
      | some actor =>
          rw [found] at leads also calm
          dsimp only at leads also calm
          have runs := RunStates.state?_of_running? found
          obtain ⟨⟨trace, outcome, reached⟩, between, rest, early, late, rfl⟩ := leads.of_bind
          obtain ⟨⟨otherTrace, otherOutcome, otherReached⟩, otherBetween, otherRest, otherEarly,
            otherLate, rfl⟩ := also.of_bind
          obtain ⟨calmNow, calmLater⟩ := Bool.or_eq_false_iff.1 calm
          rw [← (alike.prepare actor _).isContested] at calmNow
          obtain ⟨sameEnding, alikeReached⟩ := alike.follows_step actor _ _ _ early
          dsimp only at sameEnding late otherLate
          rcases coherent.stepped_once runs calmNow early otherEarly with
            equal | ⟨one, two, resumesOne, resumesTwo, different⟩
          · cases equal
            cases ending : Ending.of? outcome with
            | some ended =>
                rw [ending] at late otherLate
                cases late
                cases otherLate
                rfl
            | none =>
                obtain ⟨kept, -, -⟩ := coherent.goesOn_of_leads runs calmNow early ending
                rw [ending] at late otherLate
                obtain ⟨shown, last, rfl⟩ := late.of_map
                obtain ⟨otherShown, otherLast, rfl⟩ := otherLate.of_map
                rw [← sameEnding, ending] at calmLater
                rw [inductionHypothesis _ kept alikeReached last otherLast calmLater finished
                  alsoFinished (List.cons.inj same).2]
          · dsimp only at resumesOne resumesTwo
            subst resumesOne
            subst resumesTwo
            obtain ⟨kept, -, oneRuns⟩ := coherent.goesOn_of_leads runs calmNow early rfl
            obtain ⟨otherKept, -, twoRuns⟩ := coherent.goesOn_of_leads runs calmNow otherEarly rfl
            obtain ⟨shown, last, rfl⟩ := DecisionProgram.Leads.of_map late
            obtain ⟨otherShown, otherLast, rfl⟩ := DecisionProgram.Leads.of_map otherLate
            exact absurd (List.cons.inj same).2 (histories_differ kept (oneRuns one rfl) otherKept
              (twoRuns two rfl) different last otherLast finished alsoFinished)

/-- In the tree of a program, a leaf that is reached by choices which are not contested is the
only one with its order of events. -/
theorem leaf_of_order (program : EventProgram) (maxDecisions : Nat)
    {first second : Leaf (History × Ending)}
    (member : first ∈ (program.tree maxDecisions).leaves)
    (also : second ∈ (program.tree maxDecisions).leaves)
    (calm : program.isContested (Script.ofTrace first.trace) maxDecisions = false)
    (same : first.outcome.1 = second.outcome.1) : first = second := by
  have finished : ∀ leaf ∈ (program.tree maxDecisions).leaves, leaf.outcome.2 ≠ .unfinished := by
    intro leaf listed unfinished
    have concluded := (program.exhausts_leaves maxDecisions).concluded (explored leaf)
      (List.mem_map_of_mem listed)
    unfold explored at concluded
    rw [unfinished] at concluded
    exact concluded
  obtain ⟨after, leads⟩ := (program.tree maxDecisions).leads_ofTrace [] member
  obtain ⟨behind, alsoLeads⟩ := (program.tree maxDecisions).leads_ofTrace [] also
  obtain ⟨shown, early, rfl⟩ := leads.of_map
  obtain ⟨otherShown, otherEarly, rfl⟩ := alsoLeads.of_map
  have coherent := Scheduler.coherent_begun () maxDecisions rootHost
  rw [leaf_of_history program.steps program coherent ⟨_, rfl, .refl _⟩ early otherEarly calm
    (finished _ member) (finished _ also) same]

/-- Two runs of a search apply the same events in the same order only if a choice of the first
of them is contested. -/
theorem orders_repeat_if_contested (program : EventProgram) (maxDecisions budget : Nat)
    {first second : Nat} :
    let runs := (program.explore maxDecisions budget DepthFirst.start none).runs
    ∀ (within : first < runs.length) (listed : second < runs.length),
      runs[first].history = runs[second].history → first ≠ second →
        program.isContested (Script.ofTrace runs[first].trace) maxDecisions = true := by
  obtain ⟨shown, -, -⟩ := program.explore_of_covers maxDecisions budget none
    (DepthFirst.covers_start (program.tree maxDecisions))
  intro runs within listed same different
  have leaves : runs = ((program.tree maxDecisions).leaves.take budget).map explored := shown
  clear_value runs
  subst leaves
  rw [List.getElem_map, List.getElem_map] at same
  rw [List.getElem_map]
  rw [List.length_map] at within listed
  have distinct : ((program.tree maxDecisions).leaves.take budget).Nodup :=
    (List.Nodup.of_map _ (program.tree maxDecisions).leaves_nodup_traces).sublist
      (List.take_sublist _ _)
  refine Bool.of_not_eq_false fun calm => different ?_
  have one := program.leaf_of_order maxDecisions (List.mem_of_mem_take (List.getElem_mem within))
    (List.mem_of_mem_take (List.getElem_mem listed)) calm same
  exact distinct.getElem_inj_iff.1 one

/-- The root waits on a lock and is interrupted by a thread that takes the lock itself and
yields with it: the root may be chosen, but it cannot enter. -/
def barged : EventProgram :=
  ofLists
    [("main",
      [.announce, .act (.enter ⟨1⟩), .act (.wait ⟨1⟩ false), .act (.leave ⟨1⟩)]),
     ("main.0",
      [.act (.interrupt .root), .act (.enter ⟨1⟩), .act (.yield ⟨"src/sites.rs", 10, 5⟩),
       .act (.wait ⟨1⟩ false)])]

theorem contested_of_barged :
    let runs := (barged.explore 200 2 DepthFirst.start none).runs
    ∃ (within : 0 < runs.length) (listed : 1 < runs.length),
      runs[0].history = runs[1].history ∧ (0 : Nat) ≠ 1 ∧
        barged.isContested (Script.ofTrace runs[0].trace) 200 = true := by
  intro runs
  have repeated : ∃ (within : 0 < runs.length) (listed : 1 < runs.length),
      runs[0].history = runs[1].history := by
    decide +kernel
  obtain ⟨within, listed, same⟩ := repeated
  exact ⟨within, listed, same, Nat.zero_ne_one,
    barged.orders_repeat_if_contested 200 2 within listed same Nat.zero_ne_one⟩

/-- A complete search makes two runs with the same order of events. -/
theorem order_repeated_of_barged :
    let search := barged.explore 200 400 DepthFirst.start none
    Explorer.isComplete search.explorer = true ∧
      ∃ (within : 0 < search.runs.length) (listed : 1 < search.runs.length),
        search.runs[0].history = search.runs[1].history := by
  decide +kernel

end EventProgram

end ScheduleSearch
