import ScheduleSearch.Decision.Replay
import ScheduleSearch.Decision.Tree
import ScheduleSearch.Proofs.Thread.LineageOrder

/-!
# Threads and the names they are spawned under

A spawned thread is named after its parent and its number, with a dot between them.  A number
has no dot, so the last dot of a name parts the two again, and a name leads back to the thread.

A trace keeps the names of the threads that were offered, and a decision tree the threads
themselves.  Main statement: `replay_agrees_with_tree`, both refuse the same questions.
-/

namespace ScheduleSearch

namespace ThreadId

variable {left right parent parent' : ThreadId} {seq seq' : Nat}

section Separator

variable {α : Type} {separator : α} {above above' below below' extra : List α}

private theorem eq_nil_of_cons_eq_append (clear : separator ∉ below)
    (split : separator :: below = extra ++ separator :: below') : extra = [] := by
  cases extra with
  | nil => rfl
  | cons head rest =>
      have inside : below = rest ++ separator :: below' := (List.cons.inj split).2
      rw [inside] at clear
      exact absurd (List.mem_append_right rest List.mem_cons_self) clear

private theorem append_cons_inj (clear : separator ∉ below) (clear' : separator ∉ below')
    (same : above ++ separator :: below = above' ++ separator :: below') :
    above = above' ∧ below = below' := by
  rcases List.append_eq_append_iff.1 same with ⟨extra, rfl, split⟩ | ⟨extra, rfl, split⟩
  · obtain rfl := eq_nil_of_cons_eq_append clear split
    exact ⟨(List.append_nil above).symm, (List.cons.inj split).2⟩
  · obtain rfl := eq_nil_of_cons_eq_append clear' split
    exact ⟨List.append_nil above', (List.cons.inj split).2.symm⟩

end Separator

private theorem toList_name_child (parent : ThreadId) (seq : Nat) :
    (child parent seq).name.toList = parent.name.toList ++ '.' :: (Nat.repr seq).toList := by
  have shape : (child parent seq).name = parent.name ++ "." ++ Nat.repr seq := rfl
  rw [shape, String.toList_append, String.toList_append, List.append_assoc]
  rfl

private theorem dot_notMem_repr (number : Nat) : '.' ∉ (Nat.repr number).toList := by
  intro member
  rw [Nat.toList_repr] at member
  have digit := Nat.isDigit_of_mem_toDigits (by decide) (by decide) member
  cases digit

/-- The name of a child tells its parent's name and its number. -/
theorem name_child_inj :
    (child parent seq).name = (child parent' seq').name ↔
      parent.name = parent'.name ∧ seq = seq' := by
  constructor
  · intro same
    have letters := congrArg String.toList same
    rw [toList_name_child, toList_name_child] at letters
    obtain ⟨parents, numbers⟩ :=
      append_cons_inj (dot_notMem_repr seq) (dot_notMem_repr seq') letters
    have values := congrArg (fun digits => Nat.ofDigitChars 10 digits 0) numbers
    simp only [Nat.toList_repr, Nat.ofDigitChars_ten_toDigits] at values
    exact ⟨String.toList_inj.1 parents, values⟩
  · rintro ⟨parents, rfl⟩
    change parent.name ++ "." ++ toString seq = parent'.name ++ "." ++ toString seq
    rw [parents]

theorem name_child_ne_root (parent : ThreadId) (seq : Nat) :
    (child parent seq).name ≠ root.name := by
  intro same
  have dotted : '.' ∈ (child parent seq).name.toList := by
    rw [toList_name_child]
    exact List.mem_append_right _ List.mem_cons_self
  rw [same] at dotted
  revert dotted
  decide

/-- Threads that go by the names they were spawned under are known from their names. -/
theorem Native.eq_of_name (native : Native left) (also : Native right)
    (same : left.name = right.name) : left = right := by
  induction native generalizing right with
  | root =>
      cases also with
      | root => rfl
      | @child parent' _ seq' => exact absurd same.symm (name_child_ne_root parent' seq')
  | @child parent _ seq inductionHypothesis =>
      cases also with
      | root => exact absurd same (name_child_ne_root parent seq)
      | @child parent' native' seq' =>
          obtain ⟨parents, rfl⟩ := name_child_inj.1 same
          rw [inductionHypothesis native' parents]

private theorem Native.name_eq_iff (native : Native left) (also : Native right) :
    left.name = right.name ↔ left.lineage = right.lineage := by
  constructor
  · intro same
    rw [native.eq_of_name also same]
  · intro same
    rw [native.eq_of_lineage also same]

private theorem sameThreads_iff_names {lefts : List ThreadId} :
    ∀ {rights : List ThreadId}, (∀ thread ∈ lefts, thread.Native) →
      (∀ thread ∈ rights, thread.Native) →
      (sameThreads lefts rights = true ↔ lefts.map name = rights.map name) := by
  induction lefts with
  | nil =>
      intro rights _ _
      cases rights with
      | nil => exact ⟨fun _ => rfl, fun _ => rfl⟩
      | cons right rights => exact ⟨nofun, nofun⟩
  | cons left lefts inductionHypothesis =>
      intro rights native also
      cases rights with
      | nil => exact ⟨nofun, nofun⟩
      | cons right rights =>
          rw [List.forall_mem_cons] at native also
          rw [sameThreads, Bool.and_eq_true, same_iff_lineage, ← native.1.name_eq_iff also.1,
            inductionHypothesis native.2 also.2, List.map_cons, List.map_cons, List.cons.injEq]

end ThreadId

open ThreadId

variable {recorded offered : Question}

/-- A later visit of a node is refused unless the question is the recorded one. -/
theorem DecisionTree.visit_refused_iff {tree : DecisionTree} {id : Nat}
    (tested : (tree.node id).status ≠ .untested)
    (asked : (tree.node id).question = some recorded) :
    (∃ fault, tree.visit id offered = .error fault) ↔ recorded.same offered = false := by
  simp only [visit, if_neg tested, asked, Option.any_some]
  cases recorded.same offered with
  | true => exact ⟨nofun, nofun⟩
  | false => exact ⟨fun _ => rfl, fun _ => ⟨_, rfl⟩⟩

/-- A recorded decision does not answer a question with another label or other names. -/
theorem TraceStep.answer_refused_iff (step : TraceStep) (offered : Question) :
    (step.answer offered = .error (.otherLabel offered.label step.label) ∨
      step.answer offered = .error (.otherOptions offered.names step.options)) ↔
    ¬ (step.label = offered.label ∧ step.options = offered.names) := by
  unfold answer
  by_cases label : step.label = offered.label
  · by_cases names : offered.names = step.options
    · simp only [label, names, bne_self_eq_false, Bool.false_eq_true, if_false, and_self,
        not_true_eq_false, iff_false]
      cases offered.options[step.choice]? <;> simp
    · simp [label, names, Ne.symm names]
  · simp [label]

private theorem Question.same_iff_names (native : ∀ option ∈ recorded.options, option.Native)
    (also : ∀ option ∈ offered.options, option.Native) :
    recorded.same offered = true ↔
      recorded.label = offered.label ∧ recorded.names = offered.names := by
  rw [Question.same, Bool.and_eq_true, beq_iff_eq, sameThreads_iff_names native also]
  rfl

/-- Names tell threads apart as well as lineages do.  So options that are compared by name are
found different exactly where they are different threads, and a replay refuses the questions
that a decision tree refuses where it has recorded the same decision. -/
theorem replay_agrees_with_tree :
    (∀ left right : ThreadId, left.Native → right.Native →
      (left.name = right.name ↔ left.lineage = right.lineage)) ∧
    ∀ recorded offered : Question, (∀ option ∈ recorded.options, option.Native) →
      (∀ option ∈ offered.options, option.Native) →
      (recorded.names = offered.names ↔
        sameThreads recorded.options offered.options = true) ∧
      ∀ (tree : DecisionTree) (id : Nat) (step : TraceStep),
        (tree.node id).status ≠ .untested → (tree.node id).question = some recorded →
        step.label = recorded.label → step.options = recorded.names →
        ((∃ fault, tree.visit id offered = .error fault) ↔
          step.answer offered = .error (.otherLabel offered.label recorded.label) ∨
            step.answer offered = .error (.otherOptions offered.names recorded.names)) := by
  refine ⟨fun left right native also => native.name_eq_iff also, ?_⟩
  intro recorded offered native also
  refine ⟨(sameThreads_iff_names native also).symm, ?_⟩
  intro tree id step tested asked label names
  have refused := step.answer_refused_iff offered
  rw [label, names] at refused
  rw [DecisionTree.visit_refused_iff tested asked, refused, ← Question.same_iff_names native also,
    Bool.not_eq_true]

/-- A child of the root was offered, and then a child of another one whose name differs from
its name in a dot only. -/
theorem replay_agrees_of_similar_names :
    (child root 10).Native ∧ (child (child root 1) 0).Native ∧
      (child root 10).name = "main.10" ∧ (child (child root 1) 0).name = "main.1.0" ∧
      ((child root 10).name = (child (child root 1) 0).name ↔
        (child root 10).lineage = (child (child root 1) 0).lineage) ∧
      ((DecisionTree.start.expand 0 ⟨"main @ start", [root, child root 10]⟩).node 0).status ≠
        .untested ∧
      (∃ fault, (DecisionTree.start.expand 0 ⟨"main @ start", [root, child root 10]⟩).visit 0
        ⟨"main @ start", [root, child (child root 1) 0]⟩ = .error fault) ∧
      (⟨"main @ start", ["main", "main.10"], 1⟩ : TraceStep).answer
        ⟨"main @ start", [root, child (child root 1) 0]⟩ =
          .error (.otherOptions ["main", "main.1.0"] ["main", "main.10"]) := by
  have tenth : (child root 10).Native := Native.root.child 10
  have below : (child (child root 1) 0).Native := (Native.root.child 1).child 0
  have tested : ((DecisionTree.start.expand 0
      ⟨"main @ start", [root, child root 10]⟩).node 0).status ≠ .untested := by decide
  have answered : (⟨"main @ start", ["main", "main.10"], 1⟩ : TraceStep).answer
      ⟨"main @ start", [root, child (child root 1) 0]⟩ =
        .error (.otherOptions ["main", "main.1.0"] ["main", "main.10"]) := rfl
  obtain ⟨apart, compared⟩ := replay_agrees_with_tree
  obtain ⟨-, refused⟩ := compared ⟨"main @ start", [root, child root 10]⟩
    ⟨"main @ start", [root, child (child root 1) 0]⟩
    (List.forall_mem_cons.2 ⟨.root, List.forall_mem_singleton.2 tenth⟩)
    (List.forall_mem_cons.2 ⟨.root, List.forall_mem_singleton.2 below⟩)
  exact ⟨tenth, below, by decide +kernel, by decide +kernel, apart _ _ tenth below, tested,
    (refused _ 0 ⟨"main @ start", ["main", "main.10"], 1⟩ tested rfl rfl (by decide +kernel)).2
      (.inr answered), answered⟩

end ScheduleSearch
