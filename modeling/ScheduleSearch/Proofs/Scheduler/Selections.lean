import ScheduleSearch.Proofs.Monitor.Shares
import ScheduleSearch.Proofs.Scheduler.Consultations

/-!
# The threads that a choice selects

A choice repeats its rounds without a bound of its own.  What ends it is that a selected thread
that cannot run is blocked, so there is one runnable thread less in the next round.  Such a
thread is `PassedOver`: another thread holds the lock that it is queued for, and nothing but its
run state, the count of decisions and the source is touched by selecting it.

So the monitors are those of the first round when a thread is resumed at last, and it becomes the
owner of the lock it was queued for all along.
-/

namespace ScheduleSearch

/-- The label of the choice that is left, if one is. -/
def Prepared.label? {σ : Type} : Prepared σ → Option String
  | settled _ _ => none
  | choosing label _ => some label

private theorem Prepared.eq_choosing {σ : Type} {prepared : Prepared σ} {label : String}
    (left : prepared.label? = some label) : prepared = .choosing label prepared.state := by
  cases prepared with
  | settled outcome state => cases left
  | choosing label' state =>
      obtain rfl := Option.some.inj left
      rfl

namespace Scheduler

variable {σ : Type} [DecisionSource σ] {round : Round σ} {outcome : Outcome ThreadId}
  {asked : Scheduler σ}

/-- What the round selects, and the state after that. -/
def Round.selection (round : Round σ) : Outcome ThreadId × Scheduler σ :=
  round.state.select round.label round.state.threads.runnable

private theorem Round.selection_of_isChoice (several : round.isChoice = true) :
    round.selection = round.state.ask round.question := by
  have wide := of_decide_eq_true several
  unfold selection question
  revert wide
  generalize round.state.threads.runnable = options
  intro wide
  match options with
  | [] => cases wide
  | [only] => exact absurd wide (Nat.not_succ_le_self 1)
  | first :: second :: rest => rfl

private theorem Round.ask_of_isPut (put : round.isPut = true) :
    round.state.ask round.question =
      match round.answer with
      | (.error fault, source) => (.error (.fault fault),
          { round.state with decisions := round.state.decisions + 1, source := source })
      | (.ok chosen, source) =>
          (if round.question.options.any fun option => option.same chosen then .ok chosen
            else .error (untracked chosen),
          { round.state with decisions := round.state.decisions + 1, source := source }) := by
  have within := of_decide_eq_true (Bool.and_eq_true_iff.1 put).2
  unfold ask
  dsimp only
  rw [if_neg (Nat.not_lt.2 within), ← answer]
  cases round.answer with
  | mk reply source =>
      cases reply with
      | error fault => rfl
      | ok chosen =>
          dsimp only
          split <;> rfl

private theorem Selected.selection_eq (selected : Selected round outcome asked) :
    round.selection = (outcome, asked) := by
  cases selected with
  | only alone =>
      rw [Round.selection, alone]
      rfl
  | exceeded several spent =>
      rw [Round.isPut, several, Bool.true_and, decide_eq_false_iff_not] at spent
      rw [Round.selection_of_isChoice several]
      exact if_pos (Nat.lt_succ_of_le (Nat.not_lt.1 spent))
  | failed put fails =>
      rw [Round.selection_of_isChoice (Bool.and_eq_true_iff.1 put).1, Round.ask_of_isPut put]
      cases shape : round.answer with
      | mk reply source =>
          cases fails with
          | refused answered =>
              rw [shape] at answered
              obtain rfl : reply = _ := answered
              rfl
          | @foreign chosen answered absent =>
              rw [shape] at answered
              obtain rfl : reply = _ := answered
              dsimp only
              rw [if_neg]
              intro offered
              obtain ⟨option, member, same⟩ := List.any_eq_true.1 offered
              exact absent option member ((ThreadId.same_iff_lineage _ _).1 same)
  | chosen put answered member same =>
      rw [Round.selection_of_isChoice (Bool.and_eq_true_iff.1 put).1, Round.ask_of_isPut put]
      cases shape : round.answer with
      | mk reply source =>
          rw [shape] at answered
          obtain rfl : reply = _ := answered
          dsimp only
          rw [if_pos]
          exact List.any_eq_true.2 ⟨_, member, (ThreadId.same_iff_lineage _ _).2 same⟩

omit [DecisionSource σ] in
private theorem Round.wide_of_isPut (put : round.isPut = true) :
    2 ≤ round.state.threads.runnable.length :=
  of_decide_eq_true (Bool.and_eq_true_iff.1 put).1

private theorem Selected.some_runnable (selected : Selected round outcome asked) :
    1 ≤ round.state.threads.runnable.length := by
  cases selected with
  | only alone =>
      rw [alone]
      exact Nat.le_refl 1
  | exceeded several spent => exact Nat.le_of_succ_le (of_decide_eq_true several)
  | failed put fails => exact Nat.le_of_succ_le (Round.wide_of_isPut put)
  | chosen put answered member same => exact Nat.le_of_succ_le (Round.wide_of_isPut put)

private theorem Selected.runnable_ne_nil (selected : Selected round outcome asked) :
    round.state.threads.runnable ≠ [] :=
  List.length_pos_iff.1 selected.some_runnable

variable {label : String} {state demoted resumed : Scheduler σ} {next : ThreadId}
  {rounds : List (Round σ)} {result : Outcome Schedule × Scheduler σ}

private theorem Selected.pickWithin_succ (selected : Selected ⟨label, state⟩ outcome asked)
    (enough : Nat) :
    pickWithin (enough + 1) state label =
      match (outcome, asked) with
      | (.error halt, asked) => (.error halt, asked)
      | (.ok next, asked) =>
          match asked.promote next with
          | (.error halt, halted) => (.error halt, halted)
          | (.ok true, resumed) => (.ok (.resume next), resumed)
          | (.ok false, demoted) => pickWithin enough demoted label := by
  have selection : state.select label state.threads.runnable = (outcome, asked) :=
    selected.selection_eq
  have nonempty : state.threads.runnable ≠ [] := selected.runnable_ne_nil
  rw [pickWithin]
  revert selection nonempty
  cases state.threads.runnable with
  | nil => exact fun _ impossible => absurd rfl impossible
  | cons first others =>
      intro selection _
      exact selection ▸ rfl

/-- As many rounds as a choice takes are enough for it, and more make no difference. -/
theorem Picks.pickWithin_eq (picks : Picks label state rounds result) :
    ∀ {enough : Nat}, rounds.length ≤ enough → pickWithin enough state label = result := by
  induction picks with
  | stalled idle none =>
      rintro (_ | enough) _
      · rfl
      · rw [pickWithin, none]
  | halted idle selected =>
      rintro (_ | enough) within
      · cases within
      · exact selected.pickWithin_succ enough
  | resumed idle selected promoted =>
      rintro (_ | enough) within
      · cases within
      · rw [selected.pickWithin_succ]
        dsimp only
        rw [promoted]
  | again idle selected promoted rest inductionHypothesis =>
      rintro (_ | enough) within
      · cases within
      · rw [selected.pickWithin_succ]
        dsimp only
        rw [promoted]
        exact inductionHypothesis (Nat.le_of_succ_le_succ within)

/-- A round that is repeated is repeated with fewer runnable threads. -/
theorem Idle.length_runnable_lt (idle : round.state.Idle)
    (selected : Selected round (.ok next) asked)
    (promoted : asked.promote next = (.ok false, demoted)) :
    demoted.threads.runnable.length < round.state.threads.runnable.length := by
  rcases Idle.promote round idle selected with ⟨resumed, other⟩ | ⟨after, other, -, fewer⟩
  · cases promoted.symm.trans other
  · obtain ⟨-, rfl⟩ := Prod.mk.inj (promoted.symm.trans other)
    exact fewer

private theorem Picks.length_le (picks : Picks label state rounds result) :
    rounds.length ≤ state.threads.runnable.length := by
  induction picks with
  | stalled idle none => exact Nat.zero_le _
  | halted idle selected => exact selected.some_runnable
  | resumed idle selected promoted => exact selected.some_runnable
  | @again state asked demoted next rounds result idle selected promoted rest
      inductionHypothesis =>
      have fewer : demoted.threads.runnable.length < state.threads.runnable.length :=
        Idle.length_runnable_lt idle selected promoted
      exact Nat.succ_le_of_lt (Nat.lt_of_le_of_lt inductionHypothesis fewer)

omit [DecisionSource σ] in
/-- A choice among several threads, with fewer choices later than there are threads left. -/
private theorem length_choices_cons (round : Round σ) (rounds : List (Round σ)) {later : Nat}
    (fewer : later < round.state.threads.runnable.length)
    (rest : (choices rounds).length ≤ later - 1) :
    (choices (round :: rounds)).length ≤ round.state.threads.runnable.length - 1 := by
  by_cases several : round.isChoice = true
  · have wide : 2 ≤ round.state.threads.runnable.length := of_decide_eq_true several
    have listed : choices (round :: rounds) = round :: choices rounds :=
      List.filter_cons_of_pos several
    rw [listed, List.length_cons]
    omega
  · have listed : choices (round :: rounds) = choices rounds := List.filter_cons_of_neg several
    rw [listed]
    omega

/-- The last of the threads is not a choice. -/
theorem Picks.length_choices_le (picks : Picks label state rounds result) :
    (choices rounds).length ≤ state.threads.runnable.length - 1 := by
  induction picks with
  | stalled idle none => exact Nat.zero_le _
  | halted idle selected =>
      exact length_choices_cons _ [] selected.some_runnable (Nat.zero_le _)
  | resumed idle selected promoted =>
      exact length_choices_cons _ [] selected.some_runnable (Nat.zero_le _)
  | again idle selected promoted rest inductionHypothesis =>
      exact length_choices_cons _ _ (Idle.length_runnable_lt idle selected promoted)
        inductionHypothesis

/-- A thread is selected and cannot run, since another one holds the lock that it is queued for.
The monitors are no exception to `rest`: the thread keeps its place and its saved depth. -/
structure PassedOver (before : Scheduler σ) (next : ThreadId) (lock : LockId)
    (after : Scheduler σ) : Prop where
  runnable : before.threads.state? next = some .runnable
  queued : Queued (before.monitors.monitorOf lock).entryQueue next
  held : before.HeldByOther lock next
  blocked : after.threads.state? next = some (.blocked (some (.lock lock)))
  others : ∀ thread, thread.lineage ≠ next.lineage →
    after.threads.state? thread = before.threads.state? thread
  rest : after = { before with
    threads := after.threads
    decisions := after.decisions
    source := after.source }

omit [DecisionSource σ] in
private theorem PassedOver.monitors {before after : Scheduler σ} {lock : LockId}
    (passedOver : PassedOver before next lock after) : after.monitors = before.monitors := by
  rw [passedOver.rest]

private theorem Idle.promote_cases (idle : round.state.Idle)
    (selected : Selected round (.ok next) asked) :
    (∃ resumed, asked.promote next = (.ok true, resumed) ∧
      round.state.monitors.resume next = (.none, resumed.monitors)) ∨
    ∃ lock demoted, asked.promote next = (.ok false, demoted) ∧
      PassedOver round.state next lock demoted := by
  have runnable := selected.effect.2 next rfl
  have askedIdle := idle.of_selected selected
  obtain ⟨decisions, source, rfl⟩ := selected.effect.1
  rcases askedIdle.coherent.promote askedIdle.nobody runnable with
    ⟨monitors, resumes, promoted, -⟩ | ⟨lock, enters, held, promoted, -, turned⟩
  · exact .inl ⟨_, promoted, resumes⟩
  · refine .inr ⟨lock, _, promoted, runnable, ?_, held, ?_, ?_, rfl⟩
    · exact (idle.coherent.monitors.entering_iff next lock).1 enters
    · exact (turned next).trans (if_pos rfl)
    · exact fun thread different => (turned thread).trans (if_neg different)

private theorem Idle.passedOver (idle : round.state.Idle)
    (selected : Selected round (.ok next) asked)
    (promoted : asked.promote next = (.ok false, demoted)) :
    ∃ lock, PassedOver round.state next lock demoted := by
  rcases Idle.promote_cases idle selected with
    ⟨resumed, other, -⟩ | ⟨lock, after, other, passedOver⟩
  · cases promoted.symm.trans other
  · obtain ⟨-, rfl⟩ := Prod.mk.inj (promoted.symm.trans other)
    exact ⟨lock, passedOver⟩

/-- A thread that is resumed owns the lock it was queued for, at the depth that was saved. -/
theorem Idle.owns_of_resumed (idle : round.state.Idle)
    (selected : Selected round (.ok next) asked)
    (promoted : asked.promote next = (.ok true, resumed)) {lock : LockId} {depth : Nat}
    (saved : savedDepth? (round.state.monitors.monitorOf lock).entryQueue next = some depth) :
    resumed.monitors.Owns next lock ∧ resumed.monitors.depth lock = depth := by
  have queued := MonitorTable.queued_of_savedDepth? saved
  have enters := (idle.coherent.monitors.entering_iff next lock).2 queued
  rcases Idle.promote_cases idle selected with ⟨after, other, resumes⟩ | ⟨lock, after, other, -⟩
  · obtain ⟨-, rfl⟩ := Prod.mk.inj (promoted.symm.trans other)
    cases owner : (round.state.monitors.monitorOf lock).owner with
    | some holder =>
        have held := Monitor.isHeld_iff.2 ⟨holder, owner⟩
        cases resumes.symm.trans (MonitorTable.resume_held enters queued held)
    | none =>
        obtain ⟨depth', saved', granted⟩ := MonitorTable.resume_free enters queued owner
        obtain rfl := Option.some.inj (saved.symm.trans saved')
        rw [(Prod.mk.inj (resumes.symm.trans granted)).2, MonitorTable.depth_eq,
          MonitorTable.Owns, MonitorTable.monitorOf_insert, if_pos rfl]
        exact ⟨⟨next, rfl, rfl⟩, rfl⟩
  · cases promoted.symm.trans other

/-! ## A whole choice -/

/-- Every thread that is selected is resumed, which ends the choice, or passed over. -/
theorem Picks.resumed_or_passedOver (picks : Picks label state rounds result)
    (member : round ∈ rounds) (selection : round.selection = (.ok next, asked)) :
    (∃ resumed, asked.promote next = (.ok true, resumed) ∧
      result = (.ok (.resume next), resumed)) ∨
    ∃ lock demoted, asked.promote next = (.ok false, demoted) ∧
      PassedOver round.state next lock demoted := by
  induction picks with
  | stalled idle none => cases member
  | halted idle selected =>
      obtain rfl := List.mem_singleton.1 member
      cases (Prod.mk.inj (selected.selection_eq.symm.trans selection)).1
  | resumed idle selected promoted =>
      obtain rfl := List.mem_singleton.1 member
      obtain ⟨same, rfl⟩ := Prod.mk.inj (selected.selection_eq.symm.trans selection)
      obtain rfl := Except.ok.inj same
      exact .inl ⟨_, promoted, rfl⟩
  | again idle selected promoted rest inductionHypothesis =>
      rcases List.mem_cons.1 member with rfl | later
      · obtain ⟨same, rfl⟩ := Prod.mk.inj (selected.selection_eq.symm.trans selection)
        obtain rfl := Except.ok.inj same
        obtain ⟨lock, passedOver⟩ := Idle.passedOver idle selected promoted
        exact .inr ⟨lock, _, promoted, passedOver⟩
      · exact inductionHypothesis later

omit [DecisionSource σ] in
private theorem stalled_ne_resume (state : Scheduler σ) (next : ThreadId) :
    state.stalled ≠ .ok (.resume next) := by
  unfold stalled
  split
  · nofun
  · split <;> nofun

private theorem Picks.owns_of_resumed (picks : Picks label state rounds result)
    (resumes : result.1 = .ok (.resume next)) {lock : LockId} {depth : Nat}
    (saved : savedDepth? (state.monitors.monitorOf lock).entryQueue next = some depth) :
    result.2.monitors.Owns next lock ∧ result.2.monitors.depth lock = depth := by
  induction picks with
  | stalled idle none => exact absurd resumes (stalled_ne_resume _ next)
  | halted idle selected => cases resumes
  | resumed idle selected promoted =>
      cases resumes
      exact Idle.owns_of_resumed idle selected promoted saved
  | again idle selected promoted rest inductionHypothesis =>
      obtain ⟨lock', passedOver⟩ := Idle.passedOver idle selected promoted
      refine inductionHypothesis resumes ?_
      rw [passedOver.monitors]
      exact saved

/-- What is known of a choice, from the state in which it begins to what it comes to. -/
structure SelectionLaw (label : String) (ready : Scheduler σ) (rounds : List (Round σ))
    (result : Outcome Schedule × Scheduler σ) : Prop where
  picks : Picks label ready rounds result
  ends : ∀ enough, ready.threads.runnable.length ≤ enough →
    pickWithin enough ready label = result
  atMost : rounds.length ≤ ready.threads.runnable.length
  inTurn : AskedInTurn ready.source (consultations rounds) result.2.source
  consulted : (consultations rounds).length ≤ ready.threads.runnable.length - 1
  selected : ∀ round ∈ rounds, ∀ next asked, round.selection = (.ok next, asked) →
    (∃ resumed, asked.promote next = (.ok true, resumed) ∧
      result = (.ok (.resume next), resumed)) ∨
    ∃ lock demoted, asked.promote next = (.ok false, demoted) ∧
      PassedOver round.state next lock demoted
  resumed : ∀ next, result.1 = .ok (.resume next) → ∀ lock depth,
    savedDepth? (ready.monitors.monitorOf lock).entryQueue next = some depth →
      result.2.monitors.Owns next lock ∧ result.2.monitors.depth lock = depth

private theorem Picks.selectionLaw (picks : Picks label state rounds result) :
    SelectionLaw label state rounds result where
  picks := picks
  ends := fun _ enough => picks.pickWithin_eq (Nat.le_trans picks.length_le enough)
  atMost := picks.length_le
  inTurn := picks.asks.inTurn
  consulted := by
    rw [picks.asks.within]
    exact Nat.le_trans (List.length_take_le' _ _) picks.length_choices_le
  selected := fun _ member _ _ => picks.resumed_or_passedOver member
  resumed := fun _ resumes _ _ => picks.owns_of_resumed resumes

/-- Wherever a run comes to a choice nobody runs, and whatever the source answers, the choice ends
with no more rounds than there are runnable threads. -/
theorem Reports.selections_lawful {source : σ} {maxDecisions : Nat} {host : Host}
    {history : History} {actor : ThreadId} {event : Event} {ready : Scheduler σ}
    (reports : Reports ((fresh source maxDecisions).begin host).2 history state)
    (runs : state.threads.isRunning actor = true)
    (choosing : state.prepare actor event = .choosing label ready) :
    state.step actor event = ((ready.pick label).1.map .schedule, (ready.pick label).2) ∧
      (∀ thread, ready.threads.state? thread ≠ some .running) ∧
      SelectionLaw label ready (state.roundsOf actor event) (ready.pick label) := by
  have coherent := reports.coherent (coherent_begun source maxDecisions host)
  have running := RunStates.isRunning_iff.1 runs
  have prepared := coherent.ready running event
  rw [step_of_live (isLive_iff.2 ⟨_, running⟩), roundsOf]
  rw [choosing] at prepared ⊢
  have idle : ready.Idle := ⟨prepared.1, prepared.2⟩
  exact ⟨Prepared.complete_choosing label ready, idle.nobody, (idle.picks label).selectionLaw⟩

/-- Both children of the root want the lock that it gives up, and the first one has taken it when
the root, which holds another lock twice, is about to wait. -/
def contendedHistory : History :=
  [(.root, .announce), (.root, .announce), (.root, .act (.enter ⟨1⟩)), (.root, .choose),
    (.child .root 0, .act (.enter ⟨1⟩)), (.child .root 1, .act (.enter ⟨1⟩)),
    (.root, .act (.enter ⟨2⟩)), (.root, .act (.enter ⟨2⟩)), (.root, .act (.leave ⟨1⟩)),
    (.child .root 0, .choose)]

def contendedAnswers : Script :=
  .ofAnswers [.position 1, .position 1, .position 1, .position 0, .position 2, .position 0]

/-- The second child is selected and passed over, and the root owns its lock twice again. -/
theorem selections_of_contended :
    ∃ state ready, Reports ((fresh contendedAnswers 10).begin 0).2 contendedHistory state ∧
      state.threads.isRunning .root = true ∧
      state.prepare .root (.act (.wait ⟨2⟩ true)) = .choosing "main @ start" ready ∧
      ready.threads.runnable = [.root, .child .root 0, .child .root 1] ∧
      (state.roundsOf .root (.act (.wait ⟨2⟩ true))).length = 2 ∧
      (ready.pick "main @ start").1 = .ok (.resume .root) ∧
      (ready.pick "main @ start").2.threads.reason? (.child .root 1) = some (.lock ⟨1⟩) ∧
      (ready.pick "main @ start").2.monitors.depth ⟨2⟩ = 2 ∧
      SelectionLaw "main @ start" ready (state.roundsOf .root (.act (.wait ⟨2⟩ true)))
        (ready.pick "main @ start") := by
  have reached := drive_eq_reach ((fresh contendedAnswers 10).begin 0).2 contendedHistory
    (by decide +kernel)
  have reports := (steps_iff_drive.2 reached).reports
  have runs : (reach ((fresh contendedAnswers 10).begin 0).2 contendedHistory).threads.isRunning
      .root = true := by decide +kernel
  have left : ((reach ((fresh contendedAnswers 10).begin 0).2 contendedHistory).prepare .root
      (.act (.wait ⟨2⟩ true))).label? = some "main @ start" := by decide +kernel
  have choosing := Prepared.eq_choosing left
  obtain ⟨-, -, law⟩ := reports.selections_lawful runs choosing
  exact ⟨_, _, reports, runs, choosing, by decide +kernel, by decide +kernel, by decide +kernel,
    by decide +kernel, by decide +kernel, law⟩

end Scheduler

end ScheduleSearch
