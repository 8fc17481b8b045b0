import ScheduleSearch.Decision.DepthFirst
import ScheduleSearch.Decision.Replay
import ScheduleSearch.Proofs.Scheduler.Refusals
import ScheduleSearch.Proofs.Scheduler.Rounds

/-!
# Stalls

An execution is stuck if somebody is live and everybody who is waits.  The scheduler finds that
out when it has nobody left to choose.  A choice ends in one of three ways: nobody is runnable,
a thread is let run, or the choice among several threads fails.  In the last case the fault is
one of a stall only if the source answered with it in one of the rounds of this very choice; the
scheduler passes it on.
-/

namespace ScheduleSearch

/-- Whether the fault says that all live threads wait. -/
def Fault.isStall : Fault → Bool
  | deadlock _ => true
  | danglingThreads _ => true
  | _ => false

/-- An event that is settled before a choice fails for a broken assumption only. -/
def Prepared.Refusing {σ : Type} : Prepared σ → Prop
  | .settled (.error (.fault fault)) _ => fault.isContractViolation = true
  | _ => True

/-- An event that is settled before a choice did not stall. -/
def Prepared.Unstalled {σ : Type} : Prepared σ → Prop
  | .settled (.error (.fault fault)) _ => fault.isStall = false
  | _ => True

private theorem Prepared.Refusing.unstalled {σ : Type} {prepared : Prepared σ}
    (refusing : prepared.Refusing) : prepared.Unstalled := by
  match prepared with
  | .settled (.error (.fault fault)) _ =>
      cases fault <;> first | rfl | cases refusing
  | .settled (.error (.violation _)) _ => trivial
  | .settled (.ok _) _ => trivial
  | .choosing _ _ => trivial

namespace Scheduler

variable {σ : Type} {state after : Scheduler σ} {actor : ThreadId}

/-- An event that is refused before a choice broke an assumption. -/
theorem refusing_prepare (state : Scheduler σ) (actor : ThreadId) (event : Event) :
    (state.prepare actor event).Refusing := by
  match shape : state.prepare actor event with
  | .settled (.error (.fault fault)) _ => exact (refuses_of_prepare shape).isContractViolation
  | .settled (.error (.violation _)) _ => trivial
  | .settled (.ok _) _ => trivial
  | .choosing _ _ => trivial

/-- Somebody is live, and nobody is running or runnable. -/
def Stuck (state : Scheduler σ) : Prop :=
  (∃ thread, state.isLive thread = true) ∧
    ∀ thread, state.threads.state? thread ≠ some .running ∧
      state.threads.state? thread ≠ some .runnable

/-- The fault with which a stuck state is reported. -/
def stallFault (state : Scheduler σ) : Fault :=
  if state.rootExited then .danglingThreads state.stuckThreads
  else .deadlock state.stuckThreads

private theorem isStall_stallFault (state : Scheduler σ) : state.stallFault.isStall = true := by
  rw [stallFault]
  split <;> rfl

private theorem Stuck.stalled (stuck : state.Stuck) :
    state.stalled = .error (.fault state.stallFault) := by
  have nonempty : ¬ state.threads.isEmpty = true := by
    intro empty
    obtain ⟨thread, live⟩ := stuck.1
    obtain ⟨run, found⟩ := isLive_iff.1 live
    rw [RunStates.isEmpty_iff.1 empty thread] at found
    cases found
  rw [Scheduler.stalled, if_neg nonempty, stallFault]
  split <;> rfl

private theorem stalled_of_not_stuck (free : ¬ state.Stuck)
    (idle : ∀ thread, state.threads.state? thread ≠ some .running ∧
      state.threads.state? thread ≠ some .runnable) :
    state.stalled = .ok .quiescent ∧ ∀ thread, state.isLive thread = false := by
  have dead : ∀ thread, state.isLive thread = false := by
    intro thread
    rw [← Bool.not_eq_true]
    exact fun live => free ⟨⟨thread, live⟩, idle⟩
  refine ⟨if_pos (RunStates.isEmpty_iff.2 fun thread => ?_), dead⟩
  cases found : state.threads.state? thread with
  | none => rfl
  | some run => exact absurd (isLive_iff.2 ⟨run, found⟩) (Bool.eq_false_iff.1 (dead thread))

private theorem Stuck.not_able (stuck : state.Stuck) {thread : ThreadId} :
    ¬ (state.threads.state? thread = some .running ∨
      state.threads.state? thread = some .runnable) :=
  fun able => able.elim (stuck.2 thread).1 (stuck.2 thread).2

private theorem isLive_of_able {thread : ThreadId}
    (able : state.threads.state? thread = some .running ∨
      state.threads.state? thread = some .runnable) : state.isLive thread = true :=
  isLive_iff.2 (able.elim (fun runs => ⟨_, runs⟩) fun runnable => ⟨_, runnable⟩)

variable [DecisionSource σ] {rounds : List (Round σ)}

/-- In one of these rounds the source was asked which thread shall run, and it answered with the
fault. -/
def Declined (rounds : List (Round σ)) (fault : Fault) : Prop :=
  ∃ round ∈ consultations rounds, round.answer.1 = .error fault

private theorem declined_cons {round : Round σ} {fault : Fault} :
    Declined (round :: rounds) fault ↔
      round.isPut = true ∧ round.answer.1 = .error fault ∨ Declined rounds fault := by
  simp only [Declined, consultations, List.mem_filter, List.mem_cons]
  constructor
  · rintro ⟨declined, ⟨rfl | later, put⟩, answered⟩
    · exact .inl ⟨put, answered⟩
    · exact .inr ⟨declined, ⟨later, put⟩, answered⟩
  · rintro (⟨put, answered⟩ | ⟨declined, ⟨later, put⟩, answered⟩)
    · exact ⟨round, ⟨.inl rfl, put⟩, answered⟩
    · exact ⟨declined, ⟨.inr later, put⟩, answered⟩

/-- The source does not decline in a round that selects a thread. -/
theorem Selected.declined_cons_iff {round : Round σ} {next : ThreadId} {asked : Scheduler σ}
    (selected : Selected round (.ok next) asked) {fault : Fault} :
    Declined (round :: rounds) fault ↔ Declined rounds fault := by
  rw [declined_cons]
  refine or_iff_right ?_
  rintro ⟨put, answered⟩
  cases selected.of_fails put (.refused answered)

/-- How a choice with these rounds ends. -/
inductive Picked (rounds : List (Round σ)) : Outcome Schedule × Scheduler σ → Prop
  | stalled {after : Scheduler σ} (idle : after.Idle) (none : after.threads.runnable = [])
      (own : ∀ fault, ¬ Declined rounds fault) : Picked rounds (after.stalled, after)
  | resumed {after : Scheduler σ} (next : ThreadId) : Picked rounds (.ok (.resume next), after)
  | refused {after : Scheduler σ} {halt : Halt} (several : 2 ≤ after.threads.runnable.length)
      (declined : ∀ fault, halt = .fault fault → fault.isStall = true → Declined rounds fault) :
      Picked rounds (.error halt, after)

/-- A choice among several threads is the only one that can fail. -/
private theorem Selected.picked {round : Round σ} {halt : Halt} {asked : Scheduler σ}
    (selected : Selected round (.error halt) asked) : Picked [round] (.error halt, asked) := by
  cases selected with
  | exceeded several spent =>
      refine .refused (of_decide_eq_true several) ?_
      rintro fault ⟨⟩ stall
      cases stall
  | failed put fails =>
      refine .refused (of_decide_eq_true (Bool.and_eq_true_iff.1 put).1) ?_
      rintro fault rfl stall
      cases fails with
      | refused answered => exact declined_cons.2 (.inl ⟨put, answered⟩)
      | foreign answered absent => cases stall

private theorem Picks.picked {label : String} {result : Outcome Schedule × Scheduler σ}
    (picks : Picks label state rounds result) : Picked rounds result := by
  induction picks with
  | stalled idle none =>
      refine .stalled idle none ?_
      rintro fault ⟨round, member, -⟩
      cases member
  | halted idle selected => exact selected.picked
  | resumed idle selected promoted => exact .resumed _
  | again idle selected promoted rest inductionHypothesis =>
      cases inductionHypothesis with
      | stalled idle none own =>
          exact .stalled idle none fun fault declined =>
            own fault (selected.declined_cons_iff.1 declined)
      | resumed next => exact .resumed next
      | refused several declined =>
          exact .refused several fun fault equal stall =>
            selected.declined_cons_iff.2 (declined fault equal stall)

/-- The event failed since all live threads wait, and not since the source answered so in one of
its rounds. -/
def ReportsStall (rounds : List (Round σ)) (outcome : Outcome Reply) (fault : Fault) : Prop :=
  outcome = .error (.fault fault) ∧ fault.isStall = true ∧ ¬ Declined rounds fault

/-- What an event of the running thread comes to. -/
inductive Verdict (rounds : List (Round σ)) (outcome : Outcome Reply) (after : Scheduler σ) : Prop
  | stuck (stuck : after.Stuck) (reported : outcome = .error (.fault after.stallFault))
      (own : ∀ fault, ¬ Declined rounds fault)
  | ended (dead : ∀ thread, after.isLive thread = false)
      (quiescent : outcome = .ok (.schedule .quiescent))
  | alive {thread : ThreadId} (able : after.threads.state? thread = some .running ∨
        after.threads.state? thread = some .runnable)
      (goesOn : outcome ≠ .ok (.schedule .quiescent))
      (passedOn : ∀ fault, outcome = .error (.fault fault) → fault.isStall = true →
        Declined rounds fault)

/-- The scheduler has nobody left to choose and says so, or somebody could go on, and then a
stall is at most one that the source answered with. -/
theorem Coherent.verdict (coherent : state.Coherent)
    (runs : state.threads.state? actor = some .running) (event : Event) :
    Verdict (state.roundsOf actor event) (state.step actor event).1 (state.step actor event).2 := by
  rw [step_of_live (isLive_iff.2 ⟨_, runs⟩), roundsOf]
  have ready := coherent.ready runs event
  have unstalled := (refusing_prepare state actor event).unstalled
  cases prepared : state.prepare actor event with
  | settled outcome after =>
      rw [prepared] at ready unstalled
      obtain ⟨-, stillRuns, settled⟩ := ready
      refine .alive (Or.inl stillRuns) ?_ ?_
      · rintro rfl
        exact settled
      · rintro fault rfl stall
        have other : fault.isStall = false := unstalled
        rw [other] at stall
        cases stall
  | choosing label before =>
      rw [prepared] at ready
      rw [Prepared.complete_choosing]
      have chosen := ready.1.chosen_pick ready.2 label
      have picked := (Idle.picks ⟨ready.1, ready.2⟩ label).picked
      revert chosen picked
      generalize before.pick label = result
      intro chosen picked
      cases picked with
      | @stalled after idle none own =>
          have nobody : ∀ thread, after.threads.state? thread ≠ some .running ∧
              after.threads.state? thread ≠ some .runnable := by
            intro thread
            refine ⟨idle.nobody thread, fun runnable => ?_⟩
            have passed : RunState.runnable.isRunnable = true := rfl
            obtain ⟨listed, member, -⟩ := RunStates.exists_mem_threadsWhere runnable passed
            rw [← RunStates.runnable, none] at member
            cases member
          by_cases stuck : after.Stuck
          · refine .stuck stuck ?_ own
            rw [stuck.stalled]
            rfl
          · obtain ⟨quiescent, dead⟩ := stalled_of_not_stuck stuck nobody
            refine .ended dead ?_
            rw [quiescent]
            rfl
      | @resumed after next =>
          refine .alive (Or.inl chosen.2) ?_ ?_
          · rintro ⟨⟩
          · rintro fault ⟨⟩
      | @refused after halt several declined =>
          obtain ⟨listed, member⟩ := List.exists_mem_of_length_pos (Nat.lt_of_succ_lt several)
          refine .alive (Or.inr (RunStates.mem_runnable member)) ?_ ?_
          · rintro ⟨⟩
          · rintro fault ⟨⟩
            exact declined fault rfl

/-- The scheduler reports a stall exactly when the state is stuck. -/
theorem Verdict.reportsStall_iff {outcome : Outcome Reply}
    (verdict : Verdict rounds outcome after) :
    (∃ fault, ReportsStall rounds outcome fault) ↔ after.Stuck := by
  constructor
  · rintro ⟨fault, rfl, stall, own⟩
    cases verdict with
    | stuck stuck reported _ => exact stuck
    | ended dead quiescent => cases quiescent
    | alive able goesOn passedOn => exact absurd (passedOn fault rfl stall) own
  · intro stuck
    cases verdict with
    | stuck _ reported own => exact ⟨_, reported, after.isStall_stallFault, own _⟩
    | ended dead quiescent =>
        obtain ⟨thread, live⟩ := stuck.1
        rw [dead thread] at live
        cases live
    | alive able goesOn passedOn => exact absurd able stuck.not_able

theorem Verdict.fault_eq {outcome : Outcome Reply} (verdict : Verdict rounds outcome after)
    {fault : Fault} (reports : ReportsStall rounds outcome fault) : fault = after.stallFault := by
  obtain ⟨rfl, stall, own⟩ := reports
  cases verdict with
  | stuck stuck reported _ =>
      cases reported
      rfl
  | ended dead quiescent => cases quiescent
  | alive able goesOn passedOn => exact absurd (passedOn fault rfl stall) own

/-- An execution is over exactly when nobody is live. -/
theorem Verdict.quiescent_iff {outcome : Outcome Reply} (verdict : Verdict rounds outcome after) :
    outcome = .ok (.schedule .quiescent) ↔ ∀ thread, after.isLive thread = false := by
  cases verdict with
  | stuck stuck reported _ =>
      rw [reported]
      refine ⟨nofun, fun dead => ?_⟩
      obtain ⟨thread, live⟩ := stuck.1
      rw [dead thread] at live
      cases live
  | ended dead quiescent => exact ⟨fun _ => dead, fun _ => quiescent⟩
  | @alive thread able goesOn passedOn =>
      refine ⟨fun quiescent => absurd quiescent goesOn, fun dead => ?_⟩
      have live := isLive_of_able able
      rw [dead thread] at live
      cases live

/-- No answer of a source of this type is the fault of a stall. -/
def NeverStalls (σ : Type) [DecisionSource σ] : Prop :=
  ∀ (source after : σ) question fault,
    DecisionSource.decide source question = (.error fault, after) → fault.isStall = false

theorem NeverStalls.not_declined (honest : NeverStalls σ) {fault : Fault}
    (stall : fault.isStall = true) : ¬ Declined rounds fault := by
  rintro ⟨round, -, answered⟩
  rw [honest _ _ _ _ (Prod.ext answered rfl)] at stall
  cases stall

theorem neverStalls_depthFirst : NeverStalls DepthFirst := by
  intro source after question fault answered
  change source.decide question = (.error fault, after) at answered
  rw [DepthFirst.decide] at answered
  split at answered
  · cases answered
    rfl
  · split at answered
    · cases answered
    · split at answered <;> cases answered

theorem neverStalls_replay : NeverStalls Replay := by
  intro source after question fault answered
  change source.decide question = (.error fault, after) at answered
  rw [Replay.decide] at answered
  split at answered
  · cases answered
    rfl
  · split at answered
    · cases answered
    · split at answered <;> cases answered

end Scheduler

end ScheduleSearch
