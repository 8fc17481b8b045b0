import Mathlib.Data.List.Induction
import ScheduleSearch.Decision.Script
import ScheduleSearch.Proofs.Scheduler.AnyActor
import ScheduleSearch.Proofs.Scheduler.Calls
import ScheduleSearch.Proofs.Scheduler.Refusals
import ScheduleSearch.Proofs.Thread.LineageOrder

/-!
# The identities of threads

A child is known by the thread that announced it and by how many children that thread had
announced before.  The count of children is dropped when their parent is gone, but a thread that
is gone announces nobody any more, so no identity is given out twice.  Nothing else that happens
in the meantime counts, so what a thread is called does not depend on the schedule.
-/

namespace ScheduleSearch

/-- A thread announced another one. -/
structure Birth where
  parent : ThreadId
  child : ThreadId
  deriving DecidableEq, Repr

/-- The identity that was given out, to the root or to a child. -/
def CallResult.identity? {σ : Type} (result : CallResult σ) : Option ThreadId :=
  match result.outcome with
  | .ok (.announced thread) => some thread
  | _ => none

/-- The thread that was announced, with its parent. -/
def CallResult.birth? {σ : Type} (result : CallResult σ) : Option Birth :=
  match result.call with
  | .report parent .announce => result.identity?.map (Birth.mk parent)
  | _ => none

/-- All children that were announced, with their parents, the oldest first. -/
def birthsIn {σ : Type} (results : List (CallResult σ)) : List Birth :=
  results.filterMap CallResult.birth?

/-- All identities that were given out, the oldest first. -/
def identitiesIn {σ : Type} (results : List (CallResult σ)) : List ThreadId :=
  results.filterMap CallResult.identity?

private theorem birthsIn_concat {σ : Type} (results : List (CallResult σ)) (result : CallResult σ) :
    birthsIn (results ++ [result]) = birthsIn results ++ result.birth?.toList := by
  rw [birthsIn, List.filterMap_append, List.filterMap_cons]
  cases result.birth? <;> rfl

private theorem identitiesIn_concat {σ : Type} (results : List (CallResult σ))
    (result : CallResult σ) :
    identitiesIn (results ++ [result]) = identitiesIn results ++ result.identity?.toList := by
  rw [identitiesIn, List.filterMap_append, List.filterMap_cons]
  cases result.identity? <;> rfl

/-- The children of one thread. -/
def birthsOf (births : List Birth) (parent : ThreadId) : List Birth :=
  births.filter fun birth => birth.parent.same parent

private theorem identity?_eq_none {σ : Type} {result : CallResult σ}
    (unnamed : ∀ thread, result.outcome ≠ .ok (.announced thread)) : result.identity? = none := by
  unfold CallResult.identity?
  split
  next thread named => exact absurd named (unnamed thread)
  next => rfl

private theorem birth?_eq_none {σ : Type} {result : CallResult σ}
    (unnamed : result.identity? = none) :
    result.birth? = none := by
  unfold CallResult.birth?
  split
  next => rw [unnamed]; rfl
  next => rfl

private theorem birthsOf_append_singleton (births : List Birth) (birth : Birth)
    (parent : ThreadId) :
    birthsOf (births ++ [birth]) parent =
      birthsOf births parent ++ if birth.parent.lineage = parent.lineage then [birth] else [] := by
  rw [birthsOf, List.filter_append, birthsOf]
  congr 1
  by_cases same : birth.parent.lineage = parent.lineage
  · rw [if_pos same, List.filter_singleton, (ThreadId.same_iff_lineage _ _).2 same]
    rfl
  · have different : birth.parent.same parent = false := by
      rw [← Bool.not_eq_true, ThreadId.same_iff_lineage]
      exact same
    rw [if_neg same, List.filter_singleton, different]
    rfl

private theorem birthsOf_congr (births : List Birth) {parent twin : ThreadId}
    (same : parent.lineage = twin.lineage) : birthsOf births parent = birthsOf births twin := by
  apply List.filter_congr
  intro birth _
  rw [Bool.eq_iff_iff, ThreadId.same_iff_lineage, ThreadId.same_iff_lineage, same]

namespace Scheduler

variable {σ : Type} {state after : Scheduler σ} {actor : ThreadId} {births : List Birth}
  {identities : List ThreadId}

/-! ## The invariant -/

/-- The known threads are those to whom identities were given, and the count that is kept for
a thread is that of its children as long as the thread is not gone. -/
structure Census (births : List Birth) (identities : List ThreadId) (state : Scheduler σ) :
    Prop where
  numbered : ∀ (parent : ThreadId) (number : Nat) (birth : Birth),
    (birthsOf births parent)[number]? = some birth → birth.child = .child birth.parent number
  origin : ∀ thread ∈ identities, thread = .root ∨ ∃ birth ∈ births, birth.child = thread
  distinct : identities.Pairwise fun earlier later => earlier.lineage ≠ later.lineage
  known : ∀ thread, state.Known thread ↔ ∃ identity ∈ identities, thread.lineage = identity.lineage
  counted : ∀ thread, state.hasExited thread = false →
    state.nextNumber thread = (birthsOf births thread).length
  apart : ∀ thread, state.isLive thread = true → state.hasExited thread = false

private theorem isLive_of_unknown {thread : ThreadId} (unknown : ¬ state.Known thread) :
    state.isLive thread = false :=
  Bool.eq_false_iff.2 fun live => unknown (Or.inl live)

private theorem hasExited_of_unknown {thread : ThreadId} (unknown : ¬ state.Known thread) :
    state.hasExited thread = false :=
  Bool.eq_false_iff.2 fun exited => unknown (Or.inr exited)

private theorem not_known_fresh (source : σ) (maxDecisions : Nat) (thread : ThreadId) :
    ¬ (fresh source maxDecisions).Known thread := by
  rintro (live | exited)
  · cases live
  · cases exited

private theorem census_fresh (source : σ) (maxDecisions : Nat) :
    Census [] [] (fresh source maxDecisions) where
  numbered := nofun
  origin := nofun
  distinct := .nil
  known := by
    intro thread
    refine iff_of_false (not_known_fresh source maxDecisions thread) ?_
    rintro ⟨identity, member, -⟩
    cases member
  counted := fun _ _ => rfl
  apart := nofun

private theorem Census.of_same (census : Census births identities state)
    (live : ∀ thread, after.isLive thread = state.isLive thread)
    (exited : after.exited = state.exited)
    (spawned : after.registry.spawned = state.registry.spawned) :
    Census births identities after where
  numbered := census.numbered
  origin := census.origin
  distinct := census.distinct
  known := by
    intro thread
    have known := census.known thread
    unfold Known hasExited at known ⊢
    rwa [live, exited]
  counted := by
    intro thread present
    rw [hasExited, exited] at present
    rw [nextNumber, spawned]
    exact census.counted thread present
  apart := by
    intro thread alive
    rw [live] at alive
    rw [hasExited, exited]
    exact census.apart thread alive

private theorem Census.exists_number (census : Census births identities state) {birth : Birth}
    (member : birth ∈ births) :
    ∃ number < (birthsOf births birth.parent).length,
      birth.child = .child birth.parent number := by
  have listed : birth ∈ birthsOf births birth.parent :=
    List.mem_filter.2 ⟨member, (ThreadId.same_iff_lineage _ _).2 rfl⟩
  obtain ⟨number, found⟩ := List.mem_iff_getElem?.1 listed
  exact ⟨number, (List.getElem?_eq_some_iff.1 found).1, census.numbered _ number birth found⟩

private theorem Census.next_unknown (census : Census births identities state)
    (live : state.isLive actor = true) {thread : ThreadId}
    (same : thread.lineage = actor.lineage ++ [state.nextNumber actor]) :
    ¬ state.Known thread := by
  intro known
  obtain ⟨identity, member, equal⟩ := (census.known thread).1 known
  have child : identity.lineage = (ThreadId.child actor (state.nextNumber actor)).lineage :=
    equal.symm.trans same
  obtain rfl | ⟨birth, born, rfl⟩ := census.origin identity member
  · exact ThreadId.lineage_child_ne_root actor _ child.symm
  · obtain ⟨number, below, named⟩ := census.exists_number born
    rw [named] at child
    obtain ⟨parents, numbers⟩ := List.append_inj' child rfl
    obtain rfl := List.singleton_inj.1 numbers
    rw [birthsOf_congr births parents,
      ← census.counted actor (census.apart actor live)] at below
    exact Nat.lt_irrefl _ below

private theorem begin_eq (nobody : ∀ thread, state.isLive thread = false) (host : Host) :
    state.begin host = (.ok .root, { state with
      registry := state.registry.bind host .root
      threads := ⟨state.threads.table.insert .root .running⟩ }) := by
  have alone : state.threads.running? = none := by
    refine RunStates.running?_eq_none_iff.2 fun thread runs => ?_
    have live : state.isLive thread = true := isLive_iff.2 ⟨_, runs⟩
    rw [nobody] at live
    cases live
  simp only [begin, Registry.create, Registry.allocate, RunStates.register, RunStates.hasRunning,
    alone]
  rfl

private theorem known_begun (nobody : ∀ thread, ¬ state.Known thread) (host : Host)
    (thread : ThreadId) :
    (state.begin host).2.Known thread ↔ thread.lineage = ThreadId.root.lineage := by
  have absent : ∀ thread, state.isLive thread = false := fun thread =>
    isLive_of_unknown (nobody thread)
  have alive : (state.begin host).2.isLive thread = true ↔
      thread.lineage = ThreadId.root.lineage := by
    rw [begin_eq absent, isLive_iff]
    refine (exists_congr fun run => by
      rw [RunStates.state?_insert state.threads .root thread .running]).trans ?_
    by_cases root : thread.lineage = ThreadId.root.lineage
    · simp [root]
    · have before : ¬ ∃ run, state.threads.state? thread = some run := fun found =>
        nobody thread (Or.inl (isLive_iff.2 found))
      simpa [root] using before
  have present : (state.begin host).2.hasExited thread = state.hasExited thread := by
    rw [begin_eq absent]
    rfl
  rw [Known, alive, present, or_iff_left fun exited => nobody thread (Or.inr exited)]

private theorem Census.begin (census : Census births identities state)
    (nobody : ∀ thread, ¬ state.Known thread) (host : Host) :
    Census births (identities ++ [.root]) (state.begin host).2 := by
  have absent : ∀ thread, state.isLive thread = false := fun thread =>
    isLive_of_unknown (nobody thread)
  have present : ∀ thread, state.hasExited thread = false := fun thread =>
    hasExited_of_unknown (nobody thread)
  have none : identities = [] := by
    refine List.eq_nil_iff_forall_not_mem.2 fun identity member => nobody identity ?_
    exact (census.known identity).2 ⟨identity, member, rfl⟩
  subst none
  constructor
  case numbered => exact census.numbered
  case origin =>
    intro thread member
    exact Or.inl (List.mem_singleton.1 member)
  case distinct => exact List.pairwise_singleton _ _
  case known =>
    intro thread
    rw [known_begun nobody]
    simp
  case counted =>
    intro thread _
    rw [begin_eq absent]
    exact census.counted thread (present thread)
  case apart =>
    intro thread _
    rw [begin_eq absent]
    exact present thread

private theorem Census.announce (census : Census births identities state)
    (live : state.isLive actor = true) :
    Census (births ++ [⟨actor, .child actor (state.nextNumber actor)⟩])
      (identities ++ [.child actor (state.nextNumber actor)]) (state.announce actor).2 := by
  have count := census.counted actor (census.apart actor live)
  constructor
  case numbered =>
    intro parent number birth found
    rw [birthsOf_append_singleton] at found
    by_cases here : actor.lineage = parent.lineage
    · rw [if_pos here] at found
      by_cases before : number < (birthsOf births parent).length
      · rw [List.getElem?_append_left before] at found
        exact census.numbered parent number birth found
      · have size := (List.getElem?_eq_some_iff.1 found).1
        rw [List.length_append, List.length_singleton] at size
        obtain rfl : number = (birthsOf births parent).length := by omega
        rw [List.getElem?_concat_length, Option.some_inj] at found
        rw [← found, ← birthsOf_congr births here, count]
    · rw [if_neg here, List.append_nil] at found
      exact census.numbered parent number birth found
  case origin =>
    intro thread member
    rcases List.mem_append.1 member with old | new
    · refine (census.origin thread old).imp_right ?_
      rintro ⟨birth, born, named⟩
      exact ⟨birth, List.mem_append_left _ born, named⟩
    · exact Or.inr ⟨_, List.mem_append_right _ (List.mem_singleton.2 rfl),
        (List.mem_singleton.1 new).symm⟩
  case distinct =>
    refine List.pairwise_append.2 ⟨census.distinct, List.pairwise_singleton _ _, ?_⟩
    intro earlier given later new same
    rw [List.mem_singleton.1 new] at same
    exact census.next_unknown live same ((census.known earlier).2 ⟨earlier, given, rfl⟩)
  case known =>
    intro thread
    rw [known_announce, census.known]
    simp only [List.mem_append, List.mem_singleton, or_and_right, exists_or, exists_eq_left]
    exact or_comm
  case counted =>
    intro thread present
    rw [nextNumber_announce, birthsOf_append_singleton]
    by_cases here : thread.lineage = actor.lineage
    · rw [if_pos here, if_pos here.symm, List.length_append, List.length_singleton,
        birthsOf_congr births here, count]
    · rw [if_neg here, if_neg (Ne.symm here), List.append_nil]
      exact census.counted thread present
  case apart =>
    intro thread alive
    rcases (isLive_announce ..).1 alive with new | old
    · change state.hasExited thread = false
      exact hasExited_of_unknown (census.next_unknown live new)
    · exact census.apart thread old

private theorem Census.forget (census : Census births identities state)
    (live : state.isLive actor = true) : Census births identities (state.forget actor) := by
  have stays : ∀ thread, (state.forget actor).hasExited thread = false →
      thread.lineage ≠ actor.lineage ∧ state.hasExited thread = false := by
    intro thread present
    have neither := (hasExited_forget state actor thread).not.1 (Bool.eq_false_iff.1 present)
    exact ⟨fun same => neither (Or.inl same),
      Bool.eq_false_iff.2 fun exited => neither (Or.inr exited)⟩
  constructor
  case numbered => exact census.numbered
  case origin => exact census.origin
  case distinct => exact census.distinct
  case known =>
    intro thread
    rw [known_forget live]
    exact census.known thread
  case counted =>
    intro thread present
    obtain ⟨different, before⟩ := stays thread present
    rw [nextNumber_forget, if_neg different]
    exact census.counted thread before
  case apart =>
    intro thread alive
    obtain ⟨different, before⟩ := (isLive_forget ..).1 alive
    refine Bool.eq_false_iff.2 fun exited => ?_
    rcases (hasExited_forget ..).1 exited with same | gone
    · exact different same
    · have present := (census.apart thread before).symm.trans gone
      cases present

/-- What an event other than an announcement notes of its thread leaves the census as it is. -/
theorem Census.noted (census : Census births identities state) (live : state.isLive actor = true)
    {event : Event} (other : event ≠ .announce) :
    Census births identities (state.noted actor event) := by
  match event with
  | .announce => exact absurd rfl other
  | .bind host => exact census.of_same (fun _ => rfl) rfl rfl
  | .exit => exact census.forget live
  | .choose => exact census
  | .readInterrupt clear => exact census
  | .act action =>
      cases action with
      | yield site => exact census.of_same (fun _ => rfl) rfl rfl
      | _ => exact census

section Runs

variable [DecisionSource σ]

private theorem step_ne_announced {event : Event} (other : event ≠ .announce) (thread : ThreadId) :
    (state.step actor event).1 ≠ .ok (.announced thread) := by
  have scheduled : ∀ outcome : Outcome Schedule,
      outcome.map Reply.schedule ≠ .ok (.announced thread) := by
    rintro (halt | schedule) same <;> cases same
  rw [step, ifLive]
  split
  next =>
    cases event with
    | announce => exact absurd rfl other
    | bind host =>
        intro same
        cases same
    | exit => exact scheduled _
    | choose => exact scheduled _
    | readInterrupt clear =>
        intro same
        cases same
    | act action => exact scheduled _
  next =>
    intro same
    cases same

private theorem step_announce_of_live (live : state.isLive actor = true) :
    state.step actor .announce =
      (.ok (.announced (.child actor (state.nextNumber actor))), (state.announce actor).2) :=
  step_of_live live .announce

omit [DecisionSource σ] in
/-- A call that gives out no identity adds nothing to the census. -/
private theorem Census.of_unnamed {result : CallResult σ} (unnamed : result.identity? = none)
    (census : Census births identities result.after) :
    Census (births ++ result.birth?.toList) (identities ++ result.identity?.toList)
      result.after := by
  rw [birth?_eq_none unnamed, unnamed, Option.toList_none, Option.toList_none, List.append_nil,
    List.append_nil]
  exact census

/-- A call keeps the census, with the birth and the identity that come of it.  The execution is
begun only while nobody is known. -/
theorem Census.answer (census : Census births identities state) (call : SchedulerCall)
    (alone : call.isBegin = true → ∀ thread, ¬ state.Known thread) :
    Census (births ++ (state.answer call).birth?.toList)
      (identities ++ (state.answer call).identity?.toList) (state.answer call).after := by
  cases call with
  | begin host =>
      have nobody := alone rfl
      have absent : ∀ thread, state.isLive thread = false := fun thread =>
        isLive_of_unknown (nobody thread)
      have given : (state.answer (.begin host)).identity? = some .root := by
        rw [CallResult.identity?, Scheduler.answer, begin_eq absent]
        rfl
      have unborn : (state.answer (.begin host)).birth? = none := rfl
      rw [given, unborn, Option.toList_none, List.append_nil]
      exact census.begin nobody host
  | report actor event =>
      by_cases live : state.isLive actor = true
      · by_cases birth : event = .announce
        · subst birth
          rw [Scheduler.answer, step_announce_of_live live]
          exact census.announce live
        · have unnamed : (state.answer (.report actor event)).identity? = none :=
            identity?_eq_none (step_ne_announced birth)
          have frame := frame_step_anyway live event
          exact .of_unnamed unnamed ((census.noted live birth).of_same frame.live frame.exited
            (congrArg _ frame.registry))
      · have refused := step_of_not_live (Bool.eq_false_iff.2 live) event
        refine .of_unnamed (identity?_eq_none fun thread => ?_) ?_
        · rw [Scheduler.answer, refused]
          nofun
        · rw [Scheduler.answer, refused]
          exact census

private theorem afterCalls_of_nobody (nobody : ∀ thread, state.isLive thread = false)
    {calls : List SchedulerCall} (none : calls.countP SchedulerCall.isBegin = 0) :
    state.afterCalls calls = state := by
  induction calls with
  | nil => rfl
  | cons call rest inductionHypothesis =>
      cases call with
      | begin host => simp [SchedulerCall.isBegin] at none
      | report actor event =>
          have unchanged : (state.answer (.report actor event)).after = state := by
            rw [Scheduler.answer, step_of_not_live (nobody actor)]
          rw [afterCalls, List.foldl_cons, unchanged]
          exact inductionHypothesis (by simpa [SchedulerCall.isBegin] using none)

/-- In an execution that is begun at most once, the census holds after any calls. -/
theorem census_afterCalls (source : σ) (maxDecisions : Nat) {calls : List SchedulerCall}
    (once : calls.countP SchedulerCall.isBegin ≤ 1) :
    Census (birthsIn ((fresh source maxDecisions).answers calls))
      (identitiesIn ((fresh source maxDecisions).answers calls))
      ((fresh source maxDecisions).afterCalls calls) := by
  induction calls using List.reverseRecOn with
  | nil => exact census_fresh source maxDecisions
  | append_singleton calls call inductionHypothesis =>
      rw [List.countP_append, List.countP_singleton] at once
      have census := inductionHypothesis (by omega)
      rw [afterCalls_append_singleton, answers_append_singleton, birthsIn_concat,
        identitiesIn_concat]
      refine census.answer call fun begins thread => ?_
      rw [begins, if_pos rfl] at once
      rw [afterCalls_of_nobody (fun _ => rfl) (by omega)]
      exact not_known_fresh source maxDecisions thread

omit [DecisionSource σ] in
/-- If threads announce under the identities that were given to them, all identities are native. -/
theorem Census.native (census : Census births identities state)
    (own : ∀ birth ∈ births, birth.parent ∈ identities) (thread : ThreadId) :
    thread ∈ identities → thread.Native := by
  induction thread with
  | root => exact fun _ => .root
  | spawned parent seq name inductionHypothesis =>
      intro member
      obtain root | ⟨birth, born, named⟩ := census.origin _ member
      · cases root
      · obtain ⟨number, -, numbered⟩ := census.exists_number born
        have child : ThreadId.child birth.parent number = .spawned parent seq name :=
          numbered.symm.trans named
        obtain ⟨parents, -, -⟩ := ThreadId.spawned.inj child
        rw [← child]
        exact .child (parents ▸ inductionHypothesis (parents ▸ own birth born)) number

/-! ## The law of identities -/

/-- What holds of the identities that were given out up to a state. -/
structure IdentityLaw (births : List Birth) (identities : List ThreadId) (state : Scheduler σ) :
    Prop where
  /-- The children of a thread are numbered in the order of their announcements. -/
  numbered : ∀ (parent : ThreadId) (number : Nat) (birth : Birth),
    (birthsOf births parent)[number]? = some birth → birth.child = .child birth.parent number
  /-- A live thread can announce one more child, and it gets the next number. -/
  next : ∀ parent, state.isLive parent = true → (state.step parent .announce).1 =
    .ok (.announced (.child parent (birthsOf births parent).length))
  /-- No identity is given out twice. -/
  distinct : identities.Pairwise fun earlier later => earlier.lineage ≠ later.lineage
  /-- No thread is both live and gone. -/
  apart : ∀ thread, ¬ (state.isLive thread = true ∧ state.hasExited thread = true)

/-- Every thread announces its children under the identity that was given to it. -/
def OwnIdentities (births : List Birth) (identities : List ThreadId) : Prop :=
  ∀ birth ∈ births, birth.parent ∈ identities

/-- The two children have the same number among those of one parent, each in an execution of its
own. -/
inductive Counterparts (births births' : List Birth) : Birth → Birth → Prop
  | numbered {parent parent' : ThreadId} {number : Nat} {birth birth' : Birth}
      (same : parent.lineage = parent'.lineage)
      (found : (birthsOf births parent)[number]? = some birth)
      (found' : (birthsOf births' parent')[number]? = some birth') :
      Counterparts births births' birth birth'

/-- The identities of two executions agree. -/
structure SameChildren (births births' : List Birth) (identities identities' : List ThreadId) :
    Prop where
  lineage : ∀ birth birth', Counterparts births births' birth birth' →
    birth.child.lineage = birth'.child.lineage
  name : ∀ birth birth', Counterparts births births' birth birth' →
    birth.parent.name = birth'.parent.name → birth.child.name = birth'.child.name
  identity : OwnIdentities births identities → OwnIdentities births' identities' →
    ∀ birth birth', Counterparts births births' birth birth' → birth.child = birth'.child

omit [DecisionSource σ] in
private theorem mem_birthsOf {parent : ThreadId} {number : Nat} {birth : Birth}
    (found : (birthsOf births parent)[number]? = some birth) :
    birth ∈ births ∧ birth.parent.lineage = parent.lineage := by
  obtain ⟨member, same⟩ := List.mem_filter.1 (List.mem_of_getElem? found)
  exact ⟨member, (ThreadId.same_iff_lineage _ _).1 same⟩

private theorem Census.identityLaw (census : Census births identities state) :
    IdentityLaw births identities state where
  numbered := census.numbered
  next := by
    intro parent live
    rw [step_announce_of_live live, census.counted parent (census.apart parent live)]
  distinct := census.distinct
  apart := by
    rintro thread ⟨live, exited⟩
    have present := (census.apart thread live).symm.trans exited
    cases present

omit [DecisionSource σ] in
private theorem Counterparts.exists_number {τ : Type} {state' : Scheduler τ} {births' : List Birth}
    {identities' : List ThreadId} {birth birth' : Birth}
    (counterparts : Counterparts births births' birth birth')
    (census : Census births identities state) (census' : Census births' identities' state') :
    birth.parent.lineage = birth'.parent.lineage ∧ ∃ number,
      birth.child = .child birth.parent number ∧ birth'.child = .child birth'.parent number := by
  obtain @⟨parent, parent', number, _, _, same, found, found'⟩ := counterparts
  exact ⟨(mem_birthsOf found).2.trans (same.trans (mem_birthsOf found').2.symm), number,
    census.numbered parent number birth found, census'.numbered parent' number birth' found'⟩

omit [DecisionSource σ] in
private theorem Census.sameChildren {τ : Type} {state' : Scheduler τ} {births' : List Birth}
    {identities' : List ThreadId} (census : Census births identities state)
    (census' : Census births' identities' state') :
    SameChildren births births' identities identities' where
  lineage := by
    intro birth birth' counterparts
    obtain ⟨parents, number, named, named'⟩ := counterparts.exists_number census census'
    rw [named, named']
    exact congrArg (· ++ [number]) parents
  name := by
    intro birth birth' counterparts names
    obtain ⟨-, number, named, named'⟩ := counterparts.exists_number census census'
    rw [named, named']
    exact congrArg (· ++ "." ++ toString number) names
  identity := by
    intro own own' birth birth' counterparts
    obtain ⟨parents, number, named, named'⟩ := counterparts.exists_number census census'
    obtain ⟨_, found, found'⟩ := counterparts
    have native := census.native own _ (own birth (mem_birthsOf found).1)
    have native' := census'.native own' _ (own' birth' (mem_birthsOf found').1)
    rw [named, named', native.eq_of_lineage native' parents]

/-- Who a thread is follows from its place among the children of its parent, whatever is called
in the meantime, on behalf of whom, and whichever way the decisions fall. -/
theorem identities_of_lineage {τ : Type} [DecisionSource τ] (source : σ) (source' : τ)
    (maxDecisions maxDecisions' : Nat) {calls calls' : List SchedulerCall}
    (once : calls.countP SchedulerCall.isBegin ≤ 1)
    (once' : calls'.countP SchedulerCall.isBegin ≤ 1) :
    IdentityLaw (birthsIn ((fresh source maxDecisions).answers calls))
        (identitiesIn ((fresh source maxDecisions).answers calls))
        ((fresh source maxDecisions).afterCalls calls) ∧
      SameChildren (birthsIn ((fresh source maxDecisions).answers calls))
        (birthsIn ((fresh source' maxDecisions').answers calls'))
        (identitiesIn ((fresh source maxDecisions).answers calls))
        (identitiesIn ((fresh source' maxDecisions').answers calls')) := by
  have census := census_afterCalls source maxDecisions once
  have census' := census_afterCalls source' maxDecisions' once'
  exact ⟨census.identityLaw, census.sameChildren census'⟩

end Runs

/-- A child announces a child of its own, goes, and is forgotten, before or after the root
announces another one. -/
theorem identities_of_two_schedules :
    let first : ThreadId := .child .root 0
    let calls : List SchedulerCall := [.begin 0, .report .root .announce, .report .root .choose,
      .report first (.bind 1), .report first .announce, .report first .exit,
      .report .root .announce]
    let calls' : List SchedulerCall := [.begin 5, .report .root .announce,
      .report .root .announce, .report .root .choose, .report first .announce]
    let left := (fresh (Script.ofAnswers [.position 1]) 9).answers calls
    let right := (fresh (Script.ofAnswers [.position 1]) 9).answers calls'
    calls.countP SchedulerCall.isBegin ≤ 1 ∧ calls'.countP SchedulerCall.isBegin ≤ 1 ∧
      birthsIn left = [⟨.root, first⟩, ⟨first, .child first 0⟩, ⟨.root, .child .root 1⟩] ∧
      birthsIn right = [⟨.root, first⟩, ⟨.root, .child .root 1⟩, ⟨first, .child first 0⟩] ∧
      identitiesIn left = [.root, first, .child first 0, .child .root 1] ∧
      ((fresh (Script.ofAnswers [.position 1]) 9).afterCalls calls).hasExited first = true ∧
      SameChildren (birthsIn left) (birthsIn right) (identitiesIn left) (identitiesIn right) := by
  intro first calls calls' left right
  have once : calls.countP SchedulerCall.isBegin ≤ 1 := by decide
  have once' : calls'.countP SchedulerCall.isBegin ≤ 1 := by decide
  refine ⟨once, once', by decide +kernel, by decide +kernel, by decide +kernel,
    by decide +kernel, ?_⟩
  exact (identities_of_lineage (Script.ofAnswers [.position 1]) (Script.ofAnswers [.position 1])
    9 9 once once').2

end Scheduler

end ScheduleSearch
