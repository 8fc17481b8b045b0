import ScheduleSearch.Proofs.Decision.Obedience
import ScheduleSearch.Proofs.Exploration.ProgramTree
import ScheduleSearch.Proofs.Scheduler.AnyActor
import ScheduleSearch.Proofs.Scheduler.Refusals
import ScheduleSearch.Proofs.Scheduler.Rounds

/-!
# Misuse of the scheduler

Events may be reported for any thread, live or not, running or not.  Whatever was reported
before, an event that is refused leaves the whole state as it was, and the source of decisions
is not asked.  It is refused for one of three things: the acting thread is not live, the event
is about a thread that is unknown, or the acting thread does not own the lock that it needs.

The scheduler also answers with the fault of an unknown thread if the source of decisions
chooses one that was not offered, and by then the source has been asked.  So the source is
taken to be upright.
-/

namespace ScheduleSearch

namespace DecisionSource

variable {σ : Type} [DecisionSource σ]

/-- Whatever the source is asked, it answers with an offered thread or with a fault of its own,
which is not that of a refused event. -/
def Upright (source : σ) : Prop :=
  ∀ (earlier : List Choice) (choice : Choice),
    (∀ thread, (decide (asked source earlier) choice.toQuestion).1 = .ok thread →
      choice.options.any (fun option => option.same thread) = true) ∧
    ∀ fault, (decide (asked source earlier) choice.toQuestion).1 = .error fault →
      fault.isRefusal = false

private theorem Upright.after {source : σ} (upright : Upright source) (choice : Choice) :
    Upright (decide source choice.toQuestion).2 :=
  fun earlier => upright (choice :: earlier)

private theorem Obedient.upright {source : σ} (obedient : Obedient source) : Upright source := by
  intro earlier choice
  obtain ⟨thread, answered, offered⟩ := obedient earlier choice
  rw [answered]
  refine ⟨?_, nofun⟩
  rintro other ⟨⟩
  exact offered

end DecisionSource

namespace Scheduler

variable {σ : Type} {state : Scheduler σ} {actor : ThreadId} {event : Event}

open DecisionSource (Upright)

private theorem promote_error {next : ThreadId} {halt : Halt}
    (failed : (state.promote next).1 = .error halt) :
    ∃ violation, halt = .violation violation := by
  unfold promote at failed
  split at failed
  · cases failed
    exact ⟨_, rfl⟩
  · dsimp only at failed
    split at failed <;> cases failed

private theorem stalled_error {halt : Halt} (failed : state.stalled = .error halt) :
    ∃ fault, halt = .fault fault ∧ fault.isRefusal = false := by
  unfold stalled at failed
  split at failed
  · cases failed
  · split at failed
    all_goals
      cases failed
      exact ⟨_, rfl, rfl⟩

variable [DecisionSource σ]

/-- The result is not that of a refused event, and the source is upright afterwards. -/
structure Sincere {α : Type} (result : Outcome α × Scheduler σ) : Prop where
  refusesNothing : ∀ fault, result.1 = .error (.fault fault) → fault.isRefusal = false
  upright : Upright result.2.source

private theorem sincere_ok {α : Type} {answer : α} (upright : Upright state.source) :
    Sincere (.ok answer, state) :=
  ⟨nofun, upright⟩

private theorem Sincere.error {α β : Type} {halt : Halt}
    (sincere : Sincere ((.error halt, state) : Outcome α × Scheduler σ)) :
    Sincere ((.error halt, state) : Outcome β × Scheduler σ) := by
  refine ⟨?_, sincere.upright⟩
  rintro fault ⟨⟩
  exact sincere.refusesNothing fault rfl

private theorem Sincere.map {α β : Type} {outcome : Outcome α} (sincere : Sincere (outcome, state))
    (view : α → β) : Sincere (outcome.map view, state) := by
  cases outcome with
  | ok answer => exact sincere_ok sincere.upright
  | error halt => exact sincere.error

private theorem sincere_stalled (upright : Upright state.source) :
    Sincere (state.stalled, state) := by
  refine ⟨fun fault failed => ?_, upright⟩
  obtain ⟨other, same, passed⟩ := stalled_error failed
  cases same
  exact passed

private theorem sincere_selected {label : String} (someone : state.threads.runnable ≠ [])
    {outcome : Outcome ThreadId} {asked : Scheduler σ} (upright : Upright state.source)
    (selected : Selected ⟨label, state⟩ outcome asked) : Sincere (outcome, asked) := by
  obtain ⟨offered, ownFault⟩ := upright [] (state.turn label someone)
  have after : Upright (Round.answer ⟨label, state⟩).2 :=
    upright.after (state.turn label someone)
  cases selected with
  | only alone => exact ⟨nofun, upright⟩
  | exceeded several spent =>
      refine ⟨?_, upright⟩
      rintro fault ⟨⟩
      rfl
  | failed put fails =>
      refine ⟨?_, after⟩
      rintro fault ⟨⟩
      cases fails with
      | refused answered => exact ownFault fault answered
      | @foreign chosen answered absent =>
          obtain ⟨option, member, same⟩ := List.any_eq_true.1 (offered chosen answered)
          exact absurd ((ThreadId.same_iff_lineage _ _).1 same) (absent option member)
  | chosen put answered member same => exact ⟨nofun, after⟩

private theorem sincere_pickWithin (label : String) (rounds : Nat) :
    ∀ {state : Scheduler σ}, Upright state.source → Sincere (pickWithin rounds state label) := by
  induction rounds with
  | zero => exact sincere_stalled
  | succ rounds inductionHypothesis =>
      intro state upright
      rw [pickWithin]
      split
      next => exact sincere_stalled upright
      next options someone =>
        have sincere := sincere_selected someone upright (selected_select ⟨label, state⟩ someone)
        split
        next halt asked selected =>
          rw [selected] at sincere
          exact sincere.error
        next next asked selected =>
          rw [selected] at sincere
          have kept : Upright (asked.promote next).2.source :=
            source_promote asked next ▸ sincere.upright
          split
          next halt halted promoted =>
            obtain ⟨violation, rfl⟩ := promote_error (congrArg Prod.fst promoted)
            rw [promoted] at kept
            exact ⟨nofun, kept⟩
          next resumed promoted =>
            rw [promoted] at kept
            exact sincere_ok kept
          next demoted promoted =>
            rw [promoted] at kept
            exact inductionHypothesis kept

/-- The choice after an event does not refuse it. -/
theorem refuses_or_sincere (upright : Upright state.source) (live : state.isLive actor = true)
    (event : Event) :
    (∃ fault, state.Refuses actor event fault) ∨ Sincere (state.step actor event) := by
  have source := (undecided_prepare state actor event).1
  rw [step_of_live live]
  match shape : state.prepare actor event with
  | .settled (.error (.fault fault)) after => exact .inl ⟨fault, refuses_of_prepare shape⟩
  | .settled (.error (.violation violation)) after =>
      rw [shape] at source
      exact .inr ⟨nofun, source ▸ upright⟩
  | .settled (.ok reply) after =>
      rw [shape] at source
      exact .inr (sincere_ok (source ▸ upright))
  | .choosing label ready =>
      rw [shape] at source
      have ready : Upright ready.source := source ▸ upright
      exact .inr ((sincere_pickWithin label _ ready).map Reply.schedule)

private theorem upright_step (upright : Upright state.source) (actor : ThreadId) (event : Event) :
    Upright (state.step actor event).2.source := by
  cases live : state.isLive actor with
  | false =>
      rw [step_of_not_live live]
      exact upright
  | true =>
      rcases refuses_or_sincere upright live event with ⟨fault, refuses⟩ | sincere
      · rw [refuses.step live]
        exact upright
      · exact sincere.upright

/-- Whether no assumption of the table of run states was found broken. -/
def isProper {α : Type} : Outcome α → Bool
  | .error (.violation _) => false
  | _ => true

/-- The state is reached by beginning executions and reporting events, in any order and for any
threads.  Some of them may fail, but none breaks an assumption of the table of run states. -/
inductive Reached (source : σ) (maxDecisions : Nat) : Scheduler σ → Prop
  | fresh : Reached source maxDecisions (fresh source maxDecisions)
  | begin {state : Scheduler σ} (host : Host) (reached : Reached source maxDecisions state)
      (proper : isProper (state.begin host).1 = true) :
      Reached source maxDecisions (state.begin host).2
  | step {state : Scheduler σ} (actor : ThreadId) (event : Event)
      (reached : Reached source maxDecisions state)
      (proper : isProper (state.step actor event).1 = true) :
      Reached source maxDecisions (state.step actor event).2

omit [DecisionSource σ] in
private theorem begin_effect (state : Scheduler σ) (host : Host) :
    (state.begin host).2.source = state.source ∧
      ∀ fault, (state.begin host).1 ≠ .error (.fault fault) := by
  unfold begin
  dsimp only
  split <;> exact ⟨rfl, nofun⟩

private theorem Reached.upright {source : σ} {maxDecisions : Nat}
    (reached : Reached source maxDecisions state) (upright : Upright source) :
    Upright state.source := by
  induction reached with
  | fresh => exact upright
  | @begin state host reached proper inductionHypothesis =>
      rw [(state.begin_effect host).1]
      exact inductionHypothesis
  | step actor event reached proper inductionHypothesis =>
      exact upright_step inductionHypothesis actor event

/-- The state under another source of decisions. -/
def under {τ : Type} (state : Scheduler σ) (source : τ) : Scheduler τ :=
  state.become state.monitors source

omit [DecisionSource σ] in
private theorem Refuses.under {τ : Type} {fault : Fault} (refuses : state.Refuses actor event fault)
    (source : τ) : (state.under source).Refuses actor event fault := by
  cases refuses with
  | target named unknown => exact .target named unknown
  | lock needs foreign => exact .lock needs foreign

/-- When an event is refused, and what it leaves of the state. -/
structure RefusalLaw (state : Scheduler σ) (actor : ThreadId) (event : Event) : Prop where
  /-- A refused event leaves everything as it was. -/
  untouched : ∀ fault, fault.isRefusal = true →
    (state.step actor event).1 = .error (.fault fault) → (state.step actor event).2 = state
  /-- No source of decisions is asked: the event is refused alike under any other one, and
  leaves it as it was. -/
  unasked : ∀ fault, fault.isRefusal = true →
    (state.step actor event).1 = .error (.fault fault) →
      ∀ {τ : Type} [DecisionSource τ] (source : τ),
        (state.under source).step actor event = (.error (.fault fault), state.under source)
  /-- The event names a thread that is not known: the acting one, or the one it is about. -/
  untracked : ∀ who, (state.step actor event).1 = .error (.fault (.untrackedThread who)) ↔
    (state.isLive actor = false ∧ who = actor.name) ∨
      (state.isLive actor = true ∧ ∃ target, event.target? = some target ∧
        state.isLive target = false ∧ state.hasExited target = false ∧ who = target.name)
  /-- The acting thread leaves, waits on or notifies a lock that it does not own. -/
  illegal : ∀ thread lock,
    (state.step actor event).1 = .error (.fault (.illegalMonitorState thread lock)) ↔
      thread = actor ∧ state.isLive actor = true ∧ event.neededLock? = some lock ∧
        ¬ state.monitors.Owns actor lock

private theorem refusalLaw_of_not_live (stranger : state.isLive actor = false) (event : Event) :
    state.RefusalLaw actor event := by
  have stepped := step_of_not_live stranger event
  constructor
  case untouched => exact fun _ _ _ => congrArg Prod.snd stepped
  case unasked =>
    intro fault _ refused τ _ source
    rw [stepped] at refused
    cases refused
    have strange : (state.under source).isLive actor = false := stranger
    exact step_of_not_live strange event
  case untracked =>
    intro who
    rw [stepped, stranger]
    constructor
    · rintro ⟨⟩
      exact .inl ⟨rfl, rfl⟩
    · rintro (⟨-, rfl⟩ | ⟨⟨⟩, -⟩)
      rfl
  case illegal =>
    intro thread lock
    rw [stepped, stranger]
    constructor
    · exact nofun
    · exact fun ⟨_, live, _⟩ => nomatch live

/-- An event of a live thread is refused exactly for one of the faults of `Refuses`. -/
theorem refuses_iff (upright : Upright state.source) (live : state.isLive actor = true)
    {fault : Fault} (refusal : fault.isRefusal = true) :
    (state.step actor event).1 = .error (.fault fault) ↔ state.Refuses actor event fault := by
  constructor
  · intro refused
    rcases refuses_or_sincere upright live event with ⟨other, refuses⟩ | sincere
    · rw [refuses.step live] at refused
      cases refused
      exact refuses
    · cases (sincere.refusesNothing fault refused).symm.trans refusal
  · exact fun refuses => congrArg Prod.fst (refuses.step live)

private theorem refusalLaw_of_live (upright : Upright state.source)
    (live : state.isLive actor = true) (event : Event) : state.RefusalLaw actor event := by
  constructor
  case untouched =>
    intro fault refusal refused
    exact congrArg Prod.snd (((refuses_iff upright live refusal).1 refused).step live)
  case unasked =>
    intro fault refusal refused τ _ source
    exact (((refuses_iff upright live refusal).1 refused).under source).step live
  case untracked =>
    intro who
    rw [refuses_iff upright live rfl]
    constructor
    · intro refuses
      cases refuses with
      | @target target named unknown =>
          obtain ⟨dead, absent⟩ := target_eq_unknown_iff.1 unknown
          exact .inr ⟨live, target, named, dead, absent, rfl⟩
    · rintro (⟨stranger, -⟩ | ⟨-, target, named, dead, absent, rfl⟩)
      · cases live.symm.trans stranger
      · exact .target named (target_eq_unknown_iff.2 ⟨dead, absent⟩)
  case illegal =>
    intro thread lock
    rw [refuses_iff upright live rfl]
    constructor
    · intro refuses
      cases refuses with
      | lock needs foreign => exact ⟨rfl, live, needs, foreign⟩
    · rintro ⟨rfl, -, needs, foreign⟩
      exact .lock needs foreign

/-- Under an upright source, whatever events were reported and for whichever threads: an event
that is refused changes nothing and asks nobody, and it is refused exactly for the three ways
in which it can be misused. -/
theorem reached_refusalLaw {source : σ} {maxDecisions : Nat} (upright : Upright source)
    (reached : Reached source maxDecisions state) :
    (∀ actor event, state.RefusalLaw actor event) ∧
      ∀ host fault, (state.begin host).1 ≠ .error (.fault fault) := by
  refine ⟨fun actor event => ?_, fun host => (state.begin_effect host).2⟩
  cases live : state.isLive actor with
  | false => exact refusalLaw_of_not_live live event
  | true => exact refusalLaw_of_live (reached.upright upright) live event

/-- The root has announced a child, which holds a lock without having run. -/
def idleHolder : Scheduler Script :=
  let announced := (((fresh (Script.ofAnswers []) 4).begin 0).2.step .root .announce).2
  (announced.step (.child .root 0) (.act (.enter ⟨7⟩))).2

/-- The root may not notify the lock of its child, nor wake a second child. -/
theorem refusals_of_idle_root :
    Reached (Script.ofAnswers []) 4 idleHolder ∧
      (idleHolder.step .root (.act (.notify ⟨7⟩))).1 =
        .error (.fault (.illegalMonitorState .root ⟨7⟩)) ∧
      (idleHolder.step .root (.act (.unpark (.child .root 1)))).1 =
        .error (.fault (.untrackedThread (ThreadId.child .root 1).name)) ∧
      (∀ actor event, idleHolder.RefusalLaw actor event) ∧
      ∀ host fault, (idleHolder.begin host).1 ≠ .error (.fault fault) := by
  have upright : Upright (Script.ofAnswers []) :=
    (Script.obedient_of_positions (List.forall_mem_nil _) []).upright
  have reached : Reached (Script.ofAnswers []) 4 idleHolder :=
    .step _ _ (.step _ _ (.begin _ .fresh (by decide +kernel)) (by decide +kernel))
      (by decide +kernel)
  exact ⟨reached, by decide +kernel, by decide +kernel, reached_refusalLaw upright reached⟩

end Scheduler

end ScheduleSearch
