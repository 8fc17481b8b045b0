import ScheduleSearch.Proofs.Gate.Ready
import ScheduleSearch.Proofs.Gate.System

/-!
# Host threads at their posts

In an execution that has not failed what a host thread is doing agrees with what the gate knows
of it: whoever executes test code carries the running thread, whoever waits for a turn carries
the thread whose turn it is, and whoever sleeps without having been rung for has nothing to wake
up for yet.  A host thread that is started for a thread is the only one, and nobody carries that
thread before.
-/

namespace ScheduleSearch

namespace Standing

private theorem rung_eq_born {standing : Standing} {thread : ThreadId} :
    standing.rung = .born thread ↔ standing = .born thread := by
  cases standing <;> simp [rung]

theorem sleepsFor_iff {standing : Standing} {thread : ThreadId} :
    standing.sleepsFor thread = true ↔
      ∃ awaited, standing = .asleep (.turn awaited) false ∧ awaited.lineage = thread.lineage := by
  constructor
  · intro sleeps
    match standing with
    | .asleep (.turn awaited) false =>
        exact ⟨awaited, rfl, (ThreadId.same_iff_lineage awaited thread).1 sleeps⟩
  · rintro ⟨awaited, rfl, same⟩
    exact (ThreadId.same_iff_lineage awaited thread).2 same

end Standing

namespace Rings

variable {bells : KeySet ThreadId} {hosts after : Host → Standing} {ring : Ring}

/-- A ring does nothing to a host thread but to be heard by it. -/
theorem cases_host (rings : Rings bells hosts ring after) (host : Host) :
    after host = hosts host ∨ after host = (hosts host).rung := by
  cases rings with
  | nobody => exact Or.inl rfl
  | unheard silent => exact Or.inl rfl
  | heard listener sleeps =>
      by_cases here : host = listener
      · rw [here, Function.update_self]
        exact Or.inr rfl
      · rw [Function.update_of_ne here]
        exact Or.inl rfl
  | idle =>
      dsimp only
      split
      · exact Or.inr rfl
      · exact Or.inl rfl
  | everyone =>
      dsimp only
      split
      · exact Or.inr rfl
      · exact Or.inl rfl

theorem born_iff (rings : Rings bells hosts ring after) (host : Host) (thread : ThreadId) :
    after host = .born thread ↔ hosts host = .born thread := by
  rcases rings.cases_host host with same | rung
  · rw [same]
  · rw [rung, Standing.rung_eq_born]

/-- Whoever is left asleep was asleep before. -/
theorem asleep_of_unrung (rings : Rings bells hosts ring after) {host : Host}
    {awaited : Awaited} (asleep : after host = .asleep awaited false) :
    hosts host = .asleep awaited false := by
  rcases rings.cases_host host with same | rung
  · exact same.symm.trans asleep
  · rw [rung] at asleep
    match doing : hosts host with
    | .unborn => rw [doing] at asleep; cases asleep
    | .born thread => rw [doing] at asleep; cases asleep
    | .executing => rw [doing] at asleep; cases asleep
    | .asleep other isRung => rw [doing] at asleep; cases asleep
    | .awake other => rw [doing] at asleep; cases asleep
    | .gone => rw [doing] at asleep; cases asleep
    | .failed => rw [doing] at asleep; cases asleep

/-- Once the end is rung nobody sleeps until the end. -/
theorem told_of_idle (rings : Rings bells hosts .idle after) (host : Host) :
    after host ≠ .asleep .quiescence false := by
  intro asleep
  have before := rings.asleep_of_unrung asleep
  cases rings
  dsimp only at asleep
  rw [before] at asleep
  cases asleep

/-- Once a bell is rung on which no two host threads sleep, nobody sleeps on it. -/
theorem roused_of_thread {thread : ThreadId} (rings : Rings bells hosts (.thread thread) after)
    (single : ∀ first second, (hosts first).sleepsFor thread = true →
      (hosts second).sleepsFor thread = true → first = second)
    {host : Host} {awaited : ThreadId} (same : awaited.lineage = thread.lineage) :
    after host ≠ .asleep (.turn awaited) false := by
  intro asleep
  have before := rings.asleep_of_unrung asleep
  have sleeps : (hosts host).sleepsFor thread = true :=
    Standing.sleepsFor_iff.2 ⟨awaited, before, same⟩
  cases rings with
  | unheard silent =>
      rw [silent host] at sleeps
      cases sleeps
  | heard listener hears =>
      obtain rfl := single host listener sleeps hears
      rw [Function.update_self, before] at asleep
      cases asleep

end Rings

namespace Gate

variable {σ : Type} {gate after : Gate σ} {host : Host} {standing : Standing}

/-- What the gate knows of a host thread with the given standing. -/
def Posted (gate : Gate σ) (host : Host) : Standing → Prop
  | .unborn | .born _ | .gone | .awake .quiescence => gate.caller? host = none
  | .executing =>
      ∃ thread, gate.caller? host = some thread ∧
        gate.model.threads.state? thread = some .running
  | .asleep (.turn thread) isRung =>
      gate.caller? host = some thread ∧
        (isRung = false → gate.model.threads.state? thread ≠ some .running)
  | .asleep .quiescence isRung =>
      gate.caller? host = none ∧ (isRung = false → gate.model.isQuiescent = false)
  | .awake (.turn thread) => gate.caller? host = some thread
  | .failed => False

theorem Posted.rung (posted : gate.Posted host standing) : gate.Posted host standing.rung := by
  match standing with
  | .unborn => exact posted
  | .born thread => exact posted
  | .executing => exact posted
  | .asleep (.turn thread) isRung => exact ⟨posted.1, nofun⟩
  | .asleep .quiescence isRung => exact ⟨posted.1, nofun⟩
  | .awake awaited => exact posted
  | .gone => exact posted
  | .failed => exact posted

/-- A host thread that does not execute test code stays at its post as long as it carries the
same thread and does not miss what it waits for. -/
theorem Posted.kept (posted : gate.Posted host standing)
    (caller : after.caller? host = gate.caller? host) (waits : standing ≠ .executing)
    (alert : ∀ thread, standing = .asleep (.turn thread) false →
      after.model.threads.state? thread ≠ some .running)
    (told : standing = .asleep .quiescence false → after.model.isQuiescent = false) :
    after.Posted host standing := by
  match standing with
  | .unborn => exact caller.trans posted
  | .born thread => exact caller.trans posted
  | .executing => exact absurd rfl waits
  | .asleep (.turn thread) isRung =>
      refine ⟨caller.trans posted.1, ?_⟩
      rintro rfl
      exact alert thread rfl
  | .asleep .quiescence isRung =>
      refine ⟨caller.trans posted.1, ?_⟩
      rintro rfl
      exact told rfl
  | .awake (.turn thread) => exact caller.trans posted
  | .awake .quiescence => exact caller.trans posted
  | .gone => exact caller.trans posted
  | .failed => exact posted

/-- A host thread that carries a thread executes test code or waits for its turn. -/
theorem Posted.cases_caller (posted : gate.Posted host standing) {thread : ThreadId}
    (carries : gate.caller? host = some thread) :
    standing = .executing ∨ (∃ isRung, standing = .asleep (.turn thread) isRung) ∨
      standing = .awake (.turn thread) := by
  match standing with
  | .unborn => exact absurd (carries.symm.trans posted) nofun
  | .born other => exact absurd (carries.symm.trans posted) nofun
  | .executing => exact Or.inl rfl
  | .asleep (.turn other) isRung =>
      obtain rfl := Option.some.inj (carries.symm.trans posted.1)
      exact Or.inr (Or.inl ⟨isRung, rfl⟩)
  | .asleep .quiescence isRung => exact absurd (carries.symm.trans posted.1) nofun
  | .awake (.turn other) =>
      obtain rfl := Option.some.inj (carries.symm.trans posted)
      exact Or.inr (Or.inr rfl)
  | .awake .quiescence => exact absurd (carries.symm.trans posted) nofun
  | .gone => exact absurd (carries.symm.trans posted) nofun
  | .failed => exact False.elim posted

end Gate

variable {σ : Type}

/-- The threads for which a host thread is still to be started, or to call first, are live, are
carried by nobody, and have one host thread each. -/
structure Births (hosts : Host → Standing) (coming : KeySet ThreadId) (model : Scheduler σ) :
    Prop where
  expected : ∀ thread, coming.contains thread = true →
    model.isLive thread = true ∧ model.registry.hostOf? thread = none
  born : ∀ host thread, hosts host = .born thread →
    model.isLive thread = true ∧ model.registry.hostOf? thread = none ∧
      coming.contains thread = false
  single : ∀ first second thread other, hosts first = .born thread →
    hosts second = .born other → thread.lineage = other.lineage → first = second

namespace Births

variable {hosts after : Host → Standing} {coming : KeySet ThreadId} {model changed : Scheduler σ}
  {host : Host}

theorem start (births : Births hosts coming model) {thread : ThreadId}
    (comes : coming.contains thread = true) :
    Births (Function.update hosts host (.born thread)) (coming.erase thread) model where
  expected := fun other contained => births.expected other (KeySet.contains_erase.1 contained).2
  born := by
    intro newborn other isBorn
    by_cases here : newborn = host
    · rw [here, Function.update_self] at isBorn
      cases isBorn
      obtain ⟨live, free⟩ := births.expected thread comes
      refine ⟨live, free, ?_⟩
      rw [← Bool.not_eq_true, KeySet.contains_erase]
      exact fun both => both.1 (ThreadId.compare_eq_iff.2 rfl)
    · rw [Function.update_of_ne here] at isBorn
      obtain ⟨live, free, notComing⟩ := births.born newborn other isBorn
      refine ⟨live, free, ?_⟩
      rw [← Bool.not_eq_true, KeySet.contains_erase, notComing]
      exact fun both => Bool.false_ne_true both.2
  single := by
    have apart : ∀ newborn other, hosts newborn = .born other →
        other.lineage ≠ thread.lineage := by
      intro newborn other isBorn same
      have notComing := (births.born newborn other isBorn).2.2
      rw [Scheduler.contains_congr same, comes] at notComing
      cases notComing
    intro first second one other firstBorn secondBorn same
    by_cases firstHere : first = host
    · by_cases secondHere : second = host
      · exact firstHere.trans secondHere.symm
      · rw [firstHere, Function.update_self] at firstBorn
        rw [Function.update_of_ne secondHere] at secondBorn
        cases firstBorn
        exact absurd same.symm (apart second other secondBorn)
    · rw [Function.update_of_ne firstHere] at firstBorn
      by_cases secondHere : second = host
      · rw [secondHere, Function.update_self] at secondBorn
        cases secondBorn
        exact absurd same (apart first one firstBorn)
      · rw [Function.update_of_ne secondHere] at secondBorn
        exact births.single first second one other firstBorn secondBorn same

/-- Nothing changes for births as long as the threads in question stay live and free. -/
theorem kept (births : Births hosts coming model)
    (born : ∀ newborn thread, after newborn = .born thread → hosts newborn = .born thread)
    (free : ∀ thread, (coming.contains thread = true ∨ ∃ newborn, after newborn = .born thread) →
      model.isLive thread = true → model.registry.hostOf? thread = none →
        changed.isLive thread = true ∧ changed.registry.hostOf? thread = none) :
    Births after coming changed where
  expected := by
    intro thread comes
    obtain ⟨live, unbound⟩ := births.expected thread comes
    exact free thread (Or.inl comes) live unbound
  born := by
    intro newborn thread isBorn
    obtain ⟨live, unbound, notComing⟩ := births.born newborn thread (born _ _ isBorn)
    obtain ⟨stillLive, stillFree⟩ := free thread (Or.inr ⟨newborn, isBorn⟩) live unbound
    exact ⟨stillLive, stillFree, notComing⟩
  single := by
    intro first second thread other firstBorn secondBorn
    exact births.single first second thread other (born _ _ firstBorn) (born _ _ secondBorn)

/-- A child is announced that was not known before. -/
theorem announced (births : Births hosts coming changed) {child : ThreadId}
    (fresh : ∀ newborn thread, hosts newborn = .born thread → thread.lineage ≠ child.lineage)
    (live : changed.isLive child = true) (free : changed.registry.hostOf? child = none) :
    Births hosts (coming.add child) changed where
  expected := by
    intro thread comes
    rcases KeySet.contains_add.1 comes with same | before
    · have alike := ThreadId.compare_eq_iff.1 same
      exact ⟨(Scheduler.isLive_congr changed alike).trans live,
        (Registry.hostOf?_congr _ alike).trans free⟩
    · exact births.expected thread before
  born := by
    intro newborn thread isBorn
    obtain ⟨stillLive, unbound, notComing⟩ := births.born newborn thread isBorn
    refine ⟨stillLive, unbound, ?_⟩
    rw [← Bool.not_eq_true, KeySet.contains_add, notComing, ThreadId.compare_eq_iff]
    rintro (same | before)
    · exact fresh newborn thread isBorn same
    · cases before
  single := births.single

end Births

end ScheduleSearch
