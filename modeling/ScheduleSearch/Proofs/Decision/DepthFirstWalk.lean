import ScheduleSearch.Proofs.Decision.Coverage

/-!
# One execution under depth-first search

The descent of the depth-first explorer through a program that agrees with what the tree has
recorded: at every decision it takes the first way on that is not completely tested, so it
arrives at the first leaf that remains.  `Descent` says what the tree is then, and what it will
be once the end of the execution is recorded.  Main statement: `walk_descends`.
-/

namespace ScheduleSearch

private theorem sameThreads_refl (threads : List ThreadId) :
    sameThreads threads threads = true := by
  induction threads with
  | nil => rfl
  | cons thread rest inductionHypothesis =>
      rw [sameThreads, inductionHypothesis, (ThreadId.same_iff_lineage thread thread).2 rfl]
      rfl

theorem Question.same_refl (question : Question) : question.same question = true := by
  rw [Question.same, sameThreads_refl, BEq.rfl]
  rfl

namespace DecisionTree

variable {ω : Type} {tree : DecisionTree}

/-- Below a node that is not completely tested some child is open, and the first one is found
with its position. -/
theorem firstOpenChild_eq_some (settled : Settled tree) {id : Nat}
    (children : (tree.node id).children ≠ [])
    (incomplete : (tree.node id).isComplete = false) :
    ∃ position, position < (tree.node id).children.length ∧
      tree.firstOpenChild id = some (position, tree.childAt id position) ∧
      (tree.node (tree.childAt id position)).isComplete = false ∧
      ∀ earlier, earlier < position → (tree.node (tree.childAt id earlier)).isComplete = true := by
  have someOpen : tree.childrenComplete id ≠ true := by
    rw [ne_eq, ← settled id children, incomplete]
    exact Bool.false_ne_true
  cases found : (tree.node id).children.findIdx? fun child => !(tree.node child).isComplete with
  | none =>
      refine absurd (childrenComplete_iff.2 fun child member => ?_) someOpen
      simpa using List.findIdx?_eq_none_iff.1 found child member
  | some position =>
      obtain ⟨within, isOpen, before⟩ := List.findIdx?_eq_some_iff_getElem.1 found
      have here : tree.childAt id position = (tree.node id).children[position] :=
        List.getD_eq_getElem _ _ within
      refine ⟨position, within, ?_, ?_, ?_⟩
      · simp [firstOpenChild, found, here, within]
      · rw [here]
        simpa using isOpen
      · intro earlier below
        rw [childAt, List.getD_eq_getElem _ _ (Nat.lt_trans below within)]
        simpa using before earlier below

/-- Below a node that is completely tested no child is open. -/
theorem firstOpenChild_eq_none (settled : Settled tree) {id : Nat}
    (children : (tree.node id).children ≠ [])
    (complete : (tree.node id).isComplete = true) : tree.firstOpenChild id = none := by
  have all := childrenComplete_iff.1 ((settled id children).1 complete)
  have none : ((tree.node id).children.findIdx? fun child =>
      !(tree.node child).isComplete) = none := by
    rw [List.findIdx?_eq_none_iff]
    intro child member
    rw [all child member]
    rfl
  rw [firstOpenChild, none]
  rfl

/-- `visited` is `tree` after a decision of a program was met at the node `id`. -/
structure Visited (tree visited : DecisionTree) (choice : Choice)
    (below : Fin choice.options.length → DecisionProgram ω) (id : Nat) : Prop where
  linked : Linked visited
  settled : Settled visited
  size : tree.size ≤ visited.size
  parents : ∀ other, other < tree.size →
    (visited.node other).parent = (tree.node other).parent
  elsewhere : ∀ other, other < tree.size → other ≠ id → visited.node other = tree.node other
  incomplete : (visited.node id).isComplete = false
  tested : (visited.node id).status ≠ .untested
  question : (visited.node id).question = some choice.toQuestion
  width : (visited.node id).children.length = choice.options.length
  children : ∀ position, visited.Matches (below position) (visited.childAt id position)
  remaining : visited.remaining (.decision choice below) id =
    tree.remaining (.decision choice below) id
  recorded : visited.recorded (.decision choice below) id + tree.size =
    tree.recorded (.decision choice below) id + visited.size

private theorem visited_expand (linked : Linked tree) (settled : Settled tree) {choice : Choice}
    {below : Fin choice.options.length → DecisionProgram ω} {id : Nat} (known : id < tree.size)
    (untested : (tree.node id).status = .untested) :
    Visited tree (tree.expand id choice.toQuestion) choice below id := by
  have self := node_expand_self choice.toQuestion known
  have tested : ((tree.expand id choice.toQuestion).node id).status ≠ .untested := by
    rw [self]
    exact fun impossible => NodeStatus.noConfusion impossible
  have childAt_eq : ∀ position : Fin choice.options.length,
      (tree.expand id choice.toQuestion).childAt id position = tree.size + position := by
    intro position
    have within : position.val <
        ((tree.expand id choice.toQuestion).node id).children.length := by
      rw [self]
      simp
    rw [childAt, List.getD_eq_getElem _ _ within]
    simp [self]
  have fresh : ∀ position : Fin choice.options.length,
      ((tree.expand id choice.toQuestion).node
        ((tree.expand id choice.toQuestion).childAt id position)).status = .untested := by
    intro position
    rw [childAt_eq, node_expand_new tree id position.isLt]
    rfl
  constructor
  case linked => exact linked.expand choice.toQuestion known untested
  case settled => exact settled.expand linked choice.toQuestion known untested
  case size =>
    rw [size_expand]
    exact Nat.le_add_right _ _
  case parents =>
    intro other old
    by_cases equal : other = id
    · rw [equal, self]
    · rw [node_expand_of_ne _ old equal]
  case elsewhere =>
    intro other old different
    exact node_expand_of_ne _ old different
  case incomplete =>
    rw [self]
    rfl
  case tested => exact tested
  case question => rw [self]
  case width =>
    rw [self]
    simp
  case children =>
    intro position
    exact matches_of_untested _ (fresh position)
  case remaining =>
    rw [remaining_of_untested _ untested, remaining, if_neg tested, DecisionProgram.leaves]
    congr 1
    funext position
    rw [remaining_of_untested _ (fresh position)]
  case recorded =>
    have ones : (List.finRange choice.options.length).map (fun position =>
        (tree.expand id choice.toQuestion).recorded (below position)
          ((tree.expand id choice.toQuestion).childAt id position)) =
        List.replicate choice.options.length 1 := by
      rw [List.eq_replicate_iff]
      refine ⟨by simp, ?_⟩
      intro count member
      obtain ⟨position, -, rfl⟩ := List.mem_map.1 member
      exact recorded_of_untested _ (fresh position)
    rw [recorded_of_untested _ untested, recorded, if_neg tested, ones, size_expand]
    simp
    omega

private theorem visit_decision (linked : Linked tree) (settled : Settled tree) {choice : Choice}
    {below : Fin choice.options.length → DecisionProgram ω} {id : Nat} (known : id < tree.size)
    (recordedHere : tree.Matches (.decision choice below) id)
    (incomplete : (tree.node id).isComplete = false) :
    ∃ visited, tree.visit id choice.toQuestion = .ok visited ∧
      Visited tree visited choice below id := by
  rcases recordedHere with untested | ⟨tested, question, width, children⟩
  · refine ⟨tree.expand id choice.toQuestion, ?_, visited_expand linked settled known untested⟩
    have some : choice.options.isEmpty = false := by
      rw [List.isEmpty_eq_false_iff]
      exact choice.offered
    simp [visit, untested, some]
  · refine ⟨tree, ?_, ?_⟩
    · simp [visit, tested, question, Question.same_refl]
    · exact ⟨linked, settled, Nat.le_refl _, fun _ _ => rfl, fun _ _ _ => rfl, incomplete, tested,
        question, width, children, rfl, rfl⟩

/-! ## Descending to a leaf -/

/-- The decisions on the way to a node. -/
def decisionsTo (tree : DecisionTree) (id : Nat) : Trace :=
  ((tree.path id).zip (tree.path id).tail).filterMap fun (above, below) =>
    DepthFirst.stepBetween tree above below

private theorem zip_tail_append {α : Type} (initial : List α) (last next : α) :
    (initial ++ [last, next]).zip (initial ++ [last, next]).tail =
      (initial ++ [last]).zip (initial ++ [last]).tail ++ [(last, next)] := by
  induction initial with
  | nil => rfl
  | cons head rest inductionHypothesis =>
      cases rest with
      | nil => rfl
      | cons second rest =>
          simp only [List.cons_append, List.tail_cons, List.zip_cons_cons] at *
          rw [inductionHypothesis]

theorem decisionsTo_root (linked : Linked tree) : tree.decisionsTo root = [] := by
  obtain ⟨above, shape⟩ := path_eq_append linked root
  cases link : (tree.node root).parent with
  | none =>
      have single : tree.path root = [root] := rfl
      rw [decisionsTo, single]
      rfl
  | some parent => exact absurd (linked.parent_lt link) (Nat.not_lt_zero parent)

/-- The recorded decision that leads from a node to the child at a position. -/
def recordedStep (tree : DecisionTree) (id position : Nat) : TraceStep where
  label := (tree.node id).question.elim "" (·.label)
  options := (tree.node id).options.map ThreadId.name
  choice := position

/-- One decision more leads to a child. -/
theorem decisionsTo_child (linked : Linked tree) {id child position : Nat}
    (listed : (tree.node id).children[position]? = some child) :
    tree.decisionsTo child = tree.decisionsTo id ++ [tree.recordedStep id position] := by
  obtain ⟨within, rfl⟩ := List.getElem?_eq_some_iff.1 listed
  have member := List.getElem_mem within
  obtain ⟨above, shape⟩ := path_eq_append linked id
  have found : (tree.node id).children.findIdx? (· == (tree.node id).children[position]) =
      some position := by
    rw [List.findIdx?_eq_some_iff_getElem]
    refine ⟨within, by simp, ?_⟩
    intro earlier below
    simp only [beq_iff_eq]
    intro equal
    exact absurd ((linked.nodup id).getElem_inj_iff.1 equal) (Nat.ne_of_lt below)
  have step : DepthFirst.stepBetween tree id (tree.node id).children[position] =
      some (tree.recordedStep id position) := by
    simp only [DepthFirst.stepBetween, found, Option.map_some]
    rfl
  rw [decisionsTo, decisionsTo, path_of_parent linked (linked.childOf member).2.2, shape,
    List.append_assoc, List.singleton_append, zip_tail_append, List.filterMap_append]
  simp [step]

/-- The step to a child of a recorded decision is the one that the decision records. -/
theorem decisionsTo_childAt (linked : Linked tree) {choice : Choice} {id : Nat}
    (question : (tree.node id).question = some choice.toQuestion)
    (width : (tree.node id).children.length = choice.options.length)
    (position : Fin choice.options.length) :
    tree.decisionsTo (tree.childAt id position) =
      tree.decisionsTo id ++ [choice.step position] := by
  have within : position.val < (tree.node id).children.length := by
    rw [width]
    exact position.isLt
  have listed : (tree.node id).children[position.val]? = some (tree.childAt id position) := by
    rw [List.getElem?_eq_getElem within, childAt, List.getD_eq_getElem _ _ within]
  have step : tree.recordedStep id position = choice.step position := by
    rw [recordedStep, Node.options, question]
    rfl
  rw [decisionsTo_child linked listed, step]

/-- The state of a descent that started at the node `id` of `tree` and arrived at the node
`place` of `grown`, where `leaf` is the end of the execution. -/
structure Descent (tree : DecisionTree) (program : DecisionProgram ω) (id : Nat)
    (leaf : Leaf ω) (grown : DecisionTree) (place : Nat) : Prop where
  linked : Linked grown
  settled : Settled grown
  size : tree.size ≤ grown.size
  parents : ∀ other, other < tree.size →
    (grown.node other).parent = (tree.node other).parent
  elsewhere : ∀ other, other < tree.size → ¬ Under tree id other →
    grown.node other = tree.node other
  known : place < grown.size
  under : Under grown id place
  untested : (grown.node place).status = .untested
  recorded : grown.recorded program id + tree.size = tree.recorded program id + grown.size
  decisions : grown.decisionsTo place = grown.decisionsTo id ++ leaf.trace
  taken : ∀ after, Ended grown after place ⟨endOfExecution, []⟩ →
    after.Matches program id ∧
      tree.remaining program id = leaf :: after.remaining program id ∧
      after.recorded program id = grown.recorded program id

theorem Ended.sameRecord {after : DecisionTree} {id other : Nat} {question : Question}
    (ended : Ended tree after id question) (different : other ≠ id) :
    SameRecord tree after other := by
  obtain ⟨question, children, status⟩ := ended.elsewhere other different
  exact ⟨question, children, status⟩

private theorem descent_ended (linked : Linked tree) (settled : Settled tree) (outcome : ω)
    {id : Nat} (known : id < tree.size) (untested : (tree.node id).status = .untested) :
    Descent tree (.ended outcome) id ⟨[], outcome⟩ tree id := by
  refine ⟨linked, settled, Nat.le_refl _, fun _ _ => rfl, fun _ _ _ => rfl, known, .here,
    untested, rfl, by simp, ?_⟩
  intro after ended
  refine ⟨Or.inr ⟨ended.complete, ended.children, ended.question⟩, ?_, rfl⟩
  rw [remaining, remaining, if_pos untested, ended.complete]
  rfl

/-- In a list with nothing before a position, the first element of that position comes first. -/
private theorem flatMap_finRange_eq_cons {α : Type} {width : Nat}
    (before after : Fin width → List α) (position : Fin width) (head : α)
    (earlier : ∀ other, other < position → before other = [] ∧ after other = [])
    (here : before position = head :: after position)
    (later : ∀ other, position < other → before other = after other) :
    (List.finRange width).flatMap before = head :: (List.finRange width).flatMap after := by
  obtain ⟨initial, rest, split⟩ := List.append_of_mem (List.mem_finRange position)
  have ascending := List.pairwise_lt_finRange width
  rw [split, List.pairwise_append] at ascending
  obtain ⟨-, restAscending, across⟩ := ascending
  have initialNil : ∀ list : Fin width → List α, (∀ other, other < position → list other = []) →
      initial.flatMap list = [] := by
    intro list none
    rw [List.flatMap_eq_nil_iff]
    intro other member
    exact none other (across other member position List.mem_cons_self)
  have restEqual : rest.flatMap before = rest.flatMap after := by
    refine List.flatMap_congr fun other member => later other ?_
    exact (List.pairwise_cons.1 restAscending).1 other member
  rw [split, List.flatMap_append, List.flatMap_append, List.flatMap_cons, List.flatMap_cons,
    initialNil before fun other below => (earlier other below).1,
    initialNil after fun other below => (earlier other below).2, here, restEqual]
  rfl

/-- Sums that differ in one place. -/
private theorem sum_finRange_add {width : Nat} (before after : Fin width → Nat)
    (position : Fin width) (elsewhere : ∀ other, other ≠ position → before other = after other) :
    ((List.finRange width).map before).sum + after position =
      ((List.finRange width).map after).sum + before position := by
  obtain ⟨initial, rest, split⟩ := List.append_of_mem (List.mem_finRange position)
  have distinct := List.nodup_finRange width
  rw [split, List.nodup_middle, List.nodup_cons] at distinct
  have alike : ∀ part : List (Fin width), (∀ other ∈ part, other ∈ initial ++ rest) →
      part.map before = part.map after := by
    intro part inside
    refine List.map_congr_left fun other member => elsewhere other ?_
    rintro rfl
    exact distinct.1 (inside _ member)
  rw [split, List.map_append, List.map_append, List.map_cons, List.map_cons,
    alike initial fun _ member => List.mem_append_left _ member,
    alike rest fun _ member => List.mem_append_right _ member]
  simp only [List.sum_append, List.sum_cons]
  omega

section Decision

variable {choice : Choice} {below : Fin choice.options.length → DecisionProgram ω}
variable {visited grown : DecisionTree} {id place : Nat} {leaf : Leaf ω}

private theorem Visited.childAt_link (met : Visited tree visited choice below id)
    (position : Fin choice.options.length) :
    id < visited.childAt id position ∧ visited.childAt id position < visited.size ∧
      (visited.node (visited.childAt id position)).parent = some id :=
  met.linked.childOf (childAt_mem (by rw [met.width]; exact position.isLt))

private theorem Visited.childAt_injective (met : Visited tree visited choice below id)
    {left right : Fin choice.options.length}
    (equal : visited.childAt id left = visited.childAt id right) : left = right := by
  have within : ∀ position : Fin choice.options.length,
      position.val < (visited.node id).children.length := by
    intro position
    rw [met.width]
    exact position.isLt
  rw [childAt, childAt, List.getD_eq_getElem _ _ (within left),
    List.getD_eq_getElem _ _ (within right)] at equal
  exact Fin.ext ((met.linked.nodup id).getElem_inj_iff.1 equal)

private theorem Descent.elsewhere_of_sibling (met : Visited tree visited choice below id)
    {position other : Fin choice.options.length}
    (descent : Descent visited (below position) (visited.childAt id position) leaf grown place)
    (different : other ≠ position) {node : Nat}
    (under : Under visited (visited.childAt id other) node) :
    grown.node node = visited.node node ∧ node ≠ place := by
  have known := under.lt_size (met.childAt_link other).2.1
  have apart : ¬ Under visited (visited.childAt id position) node := fun both =>
    different <| met.childAt_injective <|
      Under.disjoint met.linked (met.childAt_link other).2.2 (met.childAt_link position).2.2
        under both
  refine ⟨descent.elsewhere node known apart, ?_⟩
  rintro rfl
  exact apart (Under.of_parents_eq met.linked descent.parents known descent.under)

private theorem Descent.above (met : Visited tree visited choice below id) (known : id < tree.size)
    {position : Fin choice.options.length}
    (descent : Descent visited (below position) (visited.childAt id position) leaf grown place) :
    grown.node id = visited.node id ∧ id ≠ place := by
  have younger := (met.childAt_link position).1
  constructor
  · refine descent.elsewhere id (Nat.lt_of_lt_of_le known met.size) fun under => ?_
    have climbed := under.le met.linked
    omega
  · have climbed := descent.under.le descent.linked
    omega

/-- What remains below a node with a decision is what remains below its children. -/
theorem remaining_decision {after : DecisionTree}
    (tested : (after.node id).status ≠ .untested) :
    after.remaining (.decision choice below) id =
      (List.finRange choice.options.length).flatMap fun position =>
        (after.remaining (below position) (after.childAt id position)).map
          (Leaf.after (choice.step position)) := by
  rw [remaining, if_neg tested]

private theorem recorded_decision {after : DecisionTree}
    (tested : (after.node id).status ≠ .untested) :
    after.recorded (.decision choice below) id =
      1 + ((List.finRange choice.options.length).map fun position =>
        after.recorded (below position) (after.childAt id position)).sum := by
  rw [recorded, if_neg tested]

/-! A decision was met, and the descent goes on in one of the children. -/

section Child

variable {position : Fin choice.options.length}
variable (met : Visited tree visited choice below id) (known : id < tree.size)
variable (descent : Descent visited (below position) (visited.childAt id position) leaf grown place)

include met known descent

private theorem Descent.childAt_eq (other : Nat) :
    grown.childAt id other = visited.childAt id other := by
  rw [childAt, childAt, (descent.above met known).1]

private theorem Descent.tested_above : (grown.node id).status ≠ .untested := by
  rw [(descent.above met known).1]
  exact met.tested

omit known in
private theorem Descent.recorded_sibling {other : Fin choice.options.length}
    (different : other ≠ position) :
    grown.recorded (below other) (visited.childAt id other) =
      visited.recorded (below other) (visited.childAt id other) := by
  refine (record_congr met.linked (below other) (met.children other) ?_).2.2
  intro node under
  exact .of_eq (descent.elsewhere_of_sibling met different under).1

private theorem Descent.recorded_above :
    grown.recorded (.decision choice below) id + tree.size =
      tree.recorded (.decision choice below) id + grown.size := by
  have sums := sum_finRange_add
    (fun other => grown.recorded (below other) (visited.childAt id other))
    (fun other => visited.recorded (below other) (visited.childAt id other)) position
    (fun other different => descent.recorded_sibling met different)
  have here := descent.recorded
  have whole := met.recorded
  rw [recorded_decision met.tested] at whole
  rw [recorded_decision (descent.tested_above met known)]
  simp only [descent.childAt_eq met known]
  omega

private theorem Descent.decisions_above :
    grown.decisionsTo place = grown.decisionsTo id ++ (leaf.after (choice.step position)).trace := by
  have above := (descent.above met known).1
  have question : (grown.node id).question = some choice.toQuestion := by
    rw [above]
    exact met.question
  have width : (grown.node id).children.length = choice.options.length := by
    rw [above]
    exact met.width
  have step := decisionsTo_childAt descent.linked question width position
  rw [descent.childAt_eq met known] at step
  rw [descent.decisions, step, Leaf.after, List.append_assoc, List.singleton_append]

omit known in
private theorem Descent.ended_sibling {after : DecisionTree}
    (ended : Ended grown after place ⟨endOfExecution, []⟩) {other : Fin choice.options.length}
    (different : other ≠ position) :
    after.Matches (below other) (visited.childAt id other) ∧
      after.remaining (below other) (visited.childAt id other) =
        visited.remaining (below other) (visited.childAt id other) ∧
      after.recorded (below other) (visited.childAt id other) =
        visited.recorded (below other) (visited.childAt id other) := by
  apply record_congr met.linked (below other) (met.children other)
  intro node under
  obtain ⟨nodeEq, nodeNe⟩ := descent.elsewhere_of_sibling met different under
  have record := ended.sameRecord nodeNe
  exact ⟨record.question.trans (by rw [nodeEq]), record.children.trans (by rw [nodeEq]),
    by rw [← nodeEq]; exact record.status⟩

private theorem Descent.taken_above
    (earlier : ∀ other, other < position →
      (visited.node (visited.childAt id other.val)).isComplete = true)
    {after : DecisionTree} (ended : Ended grown after place ⟨endOfExecution, []⟩) :
    after.Matches (.decision choice below) id ∧
      tree.remaining (.decision choice below) id =
        leaf.after (choice.step position) :: after.remaining (.decision choice below) id ∧
      after.recorded (.decision choice below) id = grown.recorded (.decision choice below) id := by
  obtain ⟨matchesHere, remainingHere, recordedHere⟩ := descent.taken after ended
  obtain ⟨hereEq, hereNe⟩ := descent.above met known
  have same := ended.sameRecord hereNe
  have childAfter : ∀ other, after.childAt id other = visited.childAt id other := by
    intro other
    rw [← descent.childAt_eq met known, childAt, childAt, same.children]
  have tested := descent.tested_above met known
  have testedAfter : (after.node id).status ≠ .untested := fun untested =>
    tested ((same.untested_iff descent.linked).1 untested)
  refine ⟨Or.inr ⟨testedAfter, ?_, ?_, ?_⟩, ?_, ?_⟩
  · rw [same.question, hereEq, met.question]
  · rw [same.children, hereEq, met.width]
  · intro other
    rw [childAfter]
    by_cases equal : other = position
    · rw [equal]
      exact matchesHere
    · exact (descent.ended_sibling met ended equal).1
  · rw [← met.remaining, remaining_decision met.tested, remaining_decision testedAfter]
    simp only [childAfter]
    refine flatMap_finRange_eq_cons _ _ position _ ?_ ?_ ?_
    · intro other before
      have none := (isComplete_iff_remaining met.settled (below other)
        (met.children other)).1 (earlier other before)
      rw [(descent.ended_sibling met ended (Fin.ne_of_lt before)).2.1, none]
      exact ⟨rfl, rfl⟩
    · rw [remainingHere]
      rfl
    · intro other behind
      rw [(descent.ended_sibling met ended (Fin.ne_of_gt behind)).2.1]
  · rw [recorded_decision tested, recorded_decision testedAfter]
    simp only [childAfter, descent.childAt_eq met known]
    congr 3
    funext other
    by_cases equal : other = position
    · rw [equal]
      exact recordedHere
    · rw [(descent.ended_sibling met ended equal).2.2, descent.recorded_sibling met equal]

/-- A descent through a decision is a descent into the first child that is open. -/
theorem Descent.of_child (linked : Linked tree)
    (earlier : ∀ other, other < position →
      (visited.node (visited.childAt id other.val)).isComplete = true) :
    Descent tree (.decision choice below) id (leaf.after (choice.step position)) grown place := by
  constructor
  case linked => exact descent.linked
  case settled => exact descent.settled
  case size => exact Nat.le_trans met.size descent.size
  case parents =>
    intro other old
    rw [descent.parents other (Nat.lt_of_lt_of_le old met.size), met.parents other old]
  case elsewhere =>
    intro other old apart
    have different : other ≠ id := by
      rintro rfl
      exact apart .here
    rw [descent.elsewhere other (Nat.lt_of_lt_of_le old met.size), met.elsewhere other old
      different]
    intro under
    exact apart <| Under.of_parents_eq linked met.parents old <|
      under.of_child (met.childAt_link position).2.2
  case known => exact descent.known
  case under =>
    apply descent.under.of_child
    rw [descent.parents _ (met.childAt_link position).2.1]
    exact (met.childAt_link position).2.2
  case untested => exact descent.untested
  case recorded => exact descent.recorded_above met known
  case decisions => exact descent.decisions_above met known
  case taken => exact fun after ended => descent.taken_above met known earlier ended

end Child

end Decision

end DecisionTree

/-! ## The explorer -/

namespace DepthFirst

open DecisionTree

variable {ω : Type}

private theorem decide_eq (explorer : DepthFirst) (linked : Linked explorer.tree)
    (settled : Settled explorer.tree) (steady : explorer.deferred = none) {choice : Choice}
    {below : Fin choice.options.length → DecisionProgram ω}
    (known : explorer.current < explorer.tree.size)
    (recordedHere : explorer.tree.Matches (.decision choice below) explorer.current)
    (incomplete : (explorer.tree.node explorer.current).isComplete = false) :
    ∃ (visited : DecisionTree) (position : Fin choice.options.length),
      Visited explorer.tree visited choice below explorer.current ∧
      (visited.node (visited.childAt explorer.current position)).isComplete = false ∧
      (∀ other, other < position →
        (visited.node (visited.childAt explorer.current other.val)).isComplete = true) ∧
      explorer.decide choice.toQuestion =
        (.ok choice.options[position],
          { explorer with
            tree := visited
            current := visited.childAt explorer.current position }) := by
  obtain ⟨visited, visit, met⟩ :=
    visit_decision linked settled known recordedHere incomplete
  have children : (visited.node explorer.current).children ≠ [] := by
    rw [← List.length_pos_iff, met.width]
    exact List.length_pos_iff.2 choice.offered
  obtain ⟨position, within, found, isOpen, earlier⟩ :=
    firstOpenChild_eq_some met.settled children met.incomplete
  have bound : position < choice.options.length := met.width ▸ within
  refine ⟨visited, ⟨position, bound⟩, met, isOpen, ?_, ?_⟩
  · intro other before
    exact earlier other before
  · have advanced : explorer.advance choice.toQuestion =
        .ok (choice.options[position],
          { explorer with
            tree := visited
            current := visited.childAt explorer.current position }) := by
      simp only [advance, visit, wayOn, bind, Except.bind, found, List.getElem?_eq_getElem bound]
      rfl
    rw [decide]
    split
    next none => exact absurd none choice.offered
    next => simp [steady, advanced]

/-- An execution of a program that agrees with the record descends to a leaf. -/
theorem walk_descends (program : DecisionProgram ω) :
    ∀ explorer : DepthFirst, Linked explorer.tree → Settled explorer.tree →
      explorer.deferred = none → explorer.current < explorer.tree.size →
      explorer.tree.Matches program explorer.current →
      (explorer.tree.node explorer.current).isComplete = false →
      ∃ leaf grown place,
        program.walk explorer =
          (some leaf, { explorer with tree := grown, current := place }) ∧
        Descent explorer.tree program explorer.current leaf grown place := by
  -- Every decision visits one node, after which all that is assumed holds at the child taken.
  induction program with
  | ended outcome =>
      intro explorer linked settled _ known recordedHere incomplete
      rcases recordedHere with untested | ⟨complete, -, -⟩
      · exact ⟨_, _, _, rfl, descent_ended linked settled outcome known untested⟩
      · rw [Node.isComplete, complete] at incomplete
        cases incomplete
  | decision choice below inductionHypothesis =>
      intro explorer linked settled steady known recordedHere incomplete
      obtain ⟨visited, position, met, isOpen, earlier, decided⟩ :=
        explorer.decide_eq linked settled steady known recordedHere incomplete
      obtain ⟨leaf, grown, place, walked, descent⟩ :=
        inductionHypothesis position
          { explorer with
            tree := visited
            current := visited.childAt explorer.current position }
          met.linked met.settled steady (met.childAt_link position).2.1
          (met.children position) isOpen
      refine ⟨leaf.after (choice.step position), grown, place, ?_,
        descent.of_child met known linked earlier⟩
      have answered : DecisionSource.decide explorer choice.toQuestion =
          explorer.decide choice.toQuestion := rfl
      have found : choice.position? choice.options[position] = some position :=
        choice.position?_of_same ((choice.same_at_iff position position).2 rfl)
      simp only [DecisionProgram.walk, answered, decided, found, walked, Option.map_some]

end DepthFirst

end ScheduleSearch
