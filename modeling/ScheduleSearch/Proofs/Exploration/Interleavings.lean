import Mathlib.Algebra.BigOperators.Fin
import Mathlib.Data.List.FinRange
import Mathlib.Data.Nat.Factorial.Basic
import ScheduleSearch.Exploration.EventProgram

/-!
# Interleavings

Finitely many parties each have a list of things to do, one after the other.  An interleaving is
an order of all these things in which every party does its own in order.  The interleavings are
listed by letting each party that is not done go first in turn, and their number is the factorial
of the number of things over the factorials of the lengths of the lists.
-/

namespace ScheduleSearch

open scoped Nat

variable {n : Nat} {β : Type}

/-- What a party does in an order of what all of them do. -/
def share (party : Fin n) (order : List (Fin n × β)) : List β :=
  (order.filter fun entry => entry.1 = party).map Prod.snd

/-- Every party does what it has to do, in order, and nothing else. -/
def Interleaves (pending : Fin n → List β) (order : List (Fin n × β)) : Prop :=
  ∀ party, share party order = pending party

/-- The orders in which a party goes first, if it has anything to do, and the rest is done in one
of the orders `later` lists for it. -/
def ledBy (party : Fin n) (later : (Fin n → List β) → List (List (Fin n × β)))
    (pending : Fin n → List β) : List (List (Fin n × β)) :=
  match pending party with
  | [] => []
  | first :: rest => (later (Function.update pending party rest)).map ((party, first) :: ·)

/-- The orders in which a number of things can be done, those led by the first party first. -/
def interleavings : Nat → (Fin n → List β) → List (List (Fin n × β))
  | 0, _ => [[]]
  | total + 1, pending =>
      (List.finRange n).flatMap fun party => ledBy party (interleavings total) pending

private theorem share_cons (party actor : Fin n) (thing : β) (order : List (Fin n × β)) :
    share party ((actor, thing) :: order) =
      if actor = party then thing :: share party order else share party order := by
  unfold share
  by_cases here : actor = party
  · simp [here]
  · simp [here]

private theorem interleaves_cons {pending : Fin n → List β} {actor : Fin n} {thing : β}
    {order : List (Fin n × β)} :
    Interleaves pending ((actor, thing) :: order) ↔
      ∃ rest, pending actor = thing :: rest ∧
        Interleaves (Function.update pending actor rest) order := by
  constructor
  · intro interleaves
    have own := interleaves actor
    rw [share_cons, if_pos rfl] at own
    refine ⟨share actor order, own.symm, ?_⟩
    intro party
    by_cases here : party = actor
    · rw [here, Function.update_self]
    · have other := interleaves party
      rw [share_cons, if_neg (Ne.symm here)] at other
      rw [Function.update_of_ne here, other]
  · rintro ⟨rest, own, interleaves⟩ party
    have left := interleaves party
    rw [share_cons]
    by_cases here : party = actor
    · rw [here, Function.update_self] at left
      rw [here, if_pos rfl, left, own]
    · rw [Function.update_of_ne here] at left
      rw [if_neg (Ne.symm here), left]

private theorem interleaves_nil {pending : Fin n → List β} :
    Interleaves pending [] ↔ ∀ party, pending party = [] :=
  ⟨fun interleaves party => (interleaves party).symm, fun done party => (done party).symm⟩

/-- The number of things that are left to do. -/
def remaining (pending : Fin n → List β) : Nat :=
  ∑ party, (pending party).length

theorem remaining_eq_zero_iff {pending : Fin n → List β} :
    remaining pending = 0 ↔ ∀ party, pending party = [] := by
  simp [remaining]

theorem remaining_update {pending : Fin n → List β} {party : Fin n} {first : β} {rest : List β}
    (own : pending party = first :: rest) :
    remaining (Function.update pending party rest) + 1 = remaining pending := by
  have others : ∑ other ∈ Finset.univ.erase party, (Function.update pending party rest other).length =
      ∑ other ∈ Finset.univ.erase party, (pending other).length := by
    apply Finset.sum_congr rfl
    intro other member
    rw [Function.update_of_ne (Finset.ne_of_mem_erase member)]
  unfold remaining
  rw [← Finset.add_sum_erase _ _ (Finset.mem_univ party), others, Function.update_self,
    ← Finset.add_sum_erase _ (fun other => (pending other).length) (Finset.mem_univ party), own,
    List.length_cons]
  omega

private theorem prod_factorial_update {pending : Fin n → List β} {party : Fin n} {first : β}
    {rest : List β} (own : pending party = first :: rest) :
    ∏ other, (pending other).length ! =
      (pending party).length * ∏ other, (Function.update pending party rest other).length ! := by
  have others : ∏ other ∈ Finset.univ.erase party,
      (Function.update pending party rest other).length ! =
        ∏ other ∈ Finset.univ.erase party, (pending other).length ! := by
    apply Finset.prod_congr rfl
    intro other member
    rw [Function.update_of_ne (Finset.ne_of_mem_erase member)]
  rw [← Finset.mul_prod_erase _ _ (Finset.mem_univ party),
    ← Finset.mul_prod_erase _ (fun other => (Function.update pending party rest other).length !)
      (Finset.mem_univ party), others, Function.update_self, own, List.length_cons,
    Nat.factorial_succ, Nat.mul_assoc]

theorem ledBy_of_done {party : Fin n} {later : (Fin n → List β) → List (List (Fin n × β))}
    {pending : Fin n → List β} (done : pending party = []) : ledBy party later pending = [] := by
  rw [ledBy, done]

theorem ledBy_of_pending {party : Fin n} {later : (Fin n → List β) → List (List (Fin n × β))}
    {pending : Fin n → List β} {first : β} {rest : List β}
    (own : pending party = first :: rest) :
    ledBy party later pending =
      (later (Function.update pending party rest)).map ((party, first) :: ·) := by
  rw [ledBy, own]

private theorem mem_ledBy {party : Fin n} {later : (Fin n → List β) → List (List (Fin n × β))}
    {pending : Fin n → List β} {order : List (Fin n × β)} :
    order ∈ ledBy party later pending ↔
      ∃ first rest tail, pending party = first :: rest ∧
        tail ∈ later (Function.update pending party rest) ∧ order = (party, first) :: tail := by
  cases own : pending party with
  | nil => simp [ledBy_of_done own]
  | cons first rest =>
      rw [ledBy_of_pending own, List.mem_map]
      constructor
      · rintro ⟨tail, listed, rfl⟩
        exact ⟨first, rest, tail, rfl, listed, rfl⟩
      · rintro ⟨first, rest, tail, same, listed, rfl⟩
        cases same
        exact ⟨tail, listed, rfl⟩

/-- The orders that are listed are the interleavings. -/
theorem mem_interleavings (total : Nat) :
    ∀ {pending : Fin n → List β} {order : List (Fin n × β)}, remaining pending = total →
      (order ∈ interleavings total pending ↔ Interleaves pending order) := by
  induction total with
  | zero =>
      intro pending order none
      have done := remaining_eq_zero_iff.1 none
      rw [interleavings, List.mem_singleton]
      cases order with
      | nil => exact iff_of_true rfl (interleaves_nil.2 done)
      | cons head order =>
          refine iff_of_false (List.cons_ne_nil head order) fun interleaves => ?_
          obtain ⟨rest, own, -⟩ := interleaves_cons.1 interleaves
          rw [done] at own
          cases own
  | succ total inductionHypothesis =>
      intro pending order some
      have left : ∀ {party first rest}, pending party = first :: rest →
          remaining (Function.update pending party rest) = total := by
        intro party first rest own
        have fewer := remaining_update own
        omega
      rw [interleavings, List.mem_flatMap]
      constructor
      · rintro ⟨party, -, member⟩
        obtain ⟨first, rest, tail, own, listed, rfl⟩ := mem_ledBy.1 member
        exact interleaves_cons.2 ⟨rest, own, (inductionHypothesis (left own)).1 listed⟩
      · intro interleaves
        cases order with
        | nil =>
            rw [remaining_eq_zero_iff.2 (interleaves_nil.1 interleaves)] at some
            cases some
        | cons head tail =>
            obtain ⟨rest, own, after⟩ := interleaves_cons.1 interleaves
            have listed := (inductionHypothesis (left own)).2 after
            exact ⟨head.1, List.mem_finRange _, mem_ledBy.2 ⟨head.2, rest, tail, own, listed, rfl⟩⟩

/-- No order is listed twice. -/
theorem nodup_interleavings (total : Nat) :
    ∀ pending : Fin n → List β, (interleavings total pending).Nodup := by
  induction total with
  | zero => exact fun _ => List.nodup_singleton []
  | succ total inductionHypothesis =>
      intro pending
      rw [interleavings, List.nodup_flatMap]
      constructor
      · intro party _
        cases own : pending party with
        | nil =>
            rw [ledBy_of_done own]
            exact List.nodup_nil
        | cons first rest =>
            rw [ledBy_of_pending own]
            exact (inductionHypothesis _).map fun left right equal => (List.cons.inj equal).2
      · -- Orders that are led by different parties differ in their first entries.
        apply (List.nodup_finRange n).imp
        intro left right different order leftMember rightMember
        obtain ⟨first, rest, tail, -, -, rfl⟩ := mem_ledBy.1 leftMember
        obtain ⟨second, others, after, -, -, same⟩ := mem_ledBy.1 rightMember
        exact different (congrArg Prod.fst (List.cons.inj same).1)

/-- The number of interleavings is a multinomial coefficient. -/
theorem length_interleavings_mul (total : Nat) :
    ∀ {pending : Fin n → List β}, remaining pending = total →
      (interleavings total pending).length * ∏ party, (pending party).length ! = total ! := by
  induction total with
  | zero =>
      intro pending none
      have done := remaining_eq_zero_iff.1 none
      simp [interleavings, done]
  | succ total inductionHypothesis =>
      intro pending some
      have led : ∀ party, (ledBy party (interleavings total) pending).length *
          ∏ other, (pending other).length ! = (pending party).length * total ! := by
        intro party
        cases own : pending party with
        | nil =>
            rw [ledBy_of_done own]
            simp
        | cons first rest =>
            have fewer := remaining_update own
            have later := @inductionHypothesis (Function.update pending party rest) (by omega)
            rw [ledBy_of_pending own, List.length_map, prod_factorial_update own,
              Nat.mul_left_comm, later, own]
      calc (interleavings (total + 1) pending).length * ∏ other, (pending other).length !
          = (∑ party, (ledBy party (interleavings total) pending).length) *
              ∏ other, (pending other).length ! := by
            rw [interleavings, List.length_flatMap, Fin.sum_univ_def]
        _ = ∑ party, (pending party).length * total ! := by
            rw [Finset.sum_mul]
            exact Finset.sum_congr rfl fun party _ => led party
        _ = remaining pending * total ! := by
            rw [← Finset.sum_mul]
            rfl
        _ = (total + 1)! := by
            rw [some, Nat.factorial_succ]

end ScheduleSearch
