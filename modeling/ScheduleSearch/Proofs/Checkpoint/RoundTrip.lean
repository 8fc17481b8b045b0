import ScheduleSearch.Checkpoint.Reader
import ScheduleSearch.Proofs.Checkpoint.Lexemes

/-!
# Checkpoints are read as they were written

Loading a saved trace yields that trace, whatever texts it holds and however long it is.  Lists
and objects are read element by element; what carries the argument is that behind an element
stands a comma or the start of a line, with which neither a number nor another element could
go on.
-/

namespace ScheduleSearch.Checkpoint

private theorem blank_newline (depth : Nat) : Blank (newline depth) := by
  intro char member
  rcases List.mem_cons.1 member with rfl | indented
  · rfl
  · rw [List.eq_of_mem_replicate indented]
    rfl

private theorem ends_newline (depth : Nat) (rest : List Char) : Ends (newline depth ++ rest) :=
  ends_cons rfl (by decide) _

/-- The items after the first one, each behind a comma. -/
def further (depth : Nat) (items : List (List Char)) : List Char :=
  items.flatMap fun item => ',' :: (newline depth ++ item)

private theorem further_nil (depth : Nat) : further depth [] = [] := rfl

private theorem further_cons (depth : Nat) (item : List Char) (items : List (List Char)) :
    further depth (item :: items) =
      ',' :: (newline depth ++ (item ++ further depth items)) := by
  rw [further, List.flatMap_cons, ← further, List.cons_append, List.append_assoc]

private theorem separated_cons (depth : Nat) (item : List Char) (items : List (List Char)) :
    separated depth (item :: items) = newline depth ++ (item ++ further depth items) := by
  induction items generalizing item with
  | nil => rw [separated, further_nil, List.append_nil]
  | cons next items inductionHypothesis =>
      rw [separated, inductionHypothesis, further_cons, List.append_assoc]
      exact nofun

/-- What stands behind an item ends it: a comma, or the line of the closing bracket. -/
private theorem ends_further (depth outer : Nat) (items : List (List Char)) (rest : List Char) :
    Ends (further depth items ++ (newline outer ++ rest)) := by
  cases items with
  | nil => exact ends_newline outer rest
  | cons item items => exact ends_cons rfl (by decide) _

/-- There are as many rounds to read the further items as they and what follows have
characters, which is enough. -/
private theorem length_lt_rounds (depth : Nat) (items : List (List Char)) (rest : List Char) :
    items.length < (further depth items ++ rest).length + 1 := by
  induction items with
  | nil => exact Nat.succ_pos _
  | cons item items inductionHypothesis =>
      rw [further_cons]
      simp only [List.length_cons, List.length_append] at inductionHypothesis ⊢
      omega

/-- The text starts with a character that is neither blank nor a closing bracket. -/
def Opens (text : List Char) : Prop :=
  ∃ first rest, text = first :: rest ∧ isBlank first = false ∧ first ≠ ']' ∧ first ≠ '\x7d'

private theorem opens_quoted (text : String) : Opens (quoted text) :=
  ⟨_, _, rfl, rfl, by decide, by decide⟩

private theorem opens_member (name : String) (value : List Char) : Opens (member name value) :=
  ⟨_, _, rfl, rfl, by decide, by decide⟩

private theorem opens_object (depth : Nat) (item : List Char) (items : List (List Char)) :
    Opens (object depth (item :: items)) :=
  ⟨_, _, rfl, rfl, by decide, by decide⟩

variable {α β : Type}

private theorem mark_comma (rest : List Char) : mark ',' (',' :: rest) = some rest :=
  mark_found blank_nil rfl rest

private theorem mark_of_comma {closing : Char} (different : ',' ≠ closing) (rest : List Char) :
    mark closing (',' :: rest) = none :=
  mark_missed blank_nil rfl different rest

private theorem moreElements_further {element : Reader α} {written : α → List Char}
    (depth outer : Nat) (rest : List Char) {values : List α}
    (reads : ∀ value ∈ values, Reads element (written value) value) {rounds : Nat}
    (enough : (values.map written).length < rounds) :
    moreElements element rounds
        (further depth (values.map written) ++ (newline outer ++ ']' :: rest)) =
      some (values, rest) := by
  induction values generalizing rounds with
  | nil =>
      match rounds, enough with
      | rounds + 1, _ =>
          rw [List.map_nil, further_nil, List.nil_append, moreElements,
            mark_found (blank_newline outer) rfl]
  | cons value values inductionHypothesis =>
      match rounds, enough with
      | rounds + 1, enough =>
          have first := reads value List.mem_cons_self (newline depth) _ (blank_newline depth)
            (ends_further depth outer (values.map written) (']' :: rest))
          have others := inductionHypothesis
            (fun other member => reads other (List.mem_cons_of_mem _ member))
            (Nat.lt_of_succ_lt_succ enough)
          rw [List.map_cons, further_cons]
          simp only [List.append_assoc, List.cons_append]
          rw [moreElements, mark_of_comma (by decide), mark_comma]
          dsimp only [Option.bind_eq_bind, Option.bind_some]
          rw [first]
          dsimp only [Option.bind_some]
          rw [others]
          rfl

private theorem bracketedItems_cons (opening closing : Char) (depth : Nat) (item : List Char)
    (items : List (List Char)) (rest : List Char) :
    bracketedItems opening closing depth (item :: items) ++ rest =
      opening :: (newline (depth + 1) ++
        (item ++ (further (depth + 1) items ++ (newline depth ++ closing :: rest)))) := by
  rw [bracketedItems, if_neg (by simp), separated_cons]
  simp only [List.append_assoc, List.cons_append, List.nil_append]

private theorem reads_array {element : Reader α} {written : α → List Char} (depth : Nat)
    {values : List α} (opens : ∀ value ∈ values, Opens (written value))
    (reads : ∀ value ∈ values, Reads element (written value) value) :
    Reads (arrayOf element) (array depth (values.map written)) values := by
  intro blanks rest blank _
  cases values with
  | nil =>
      change arrayOf element (blanks ++ '[' :: ([] ++ ']' :: rest)) = _
      rw [arrayOf, mark_found blank rfl]
      dsimp only [Option.bind_eq_bind, Option.bind_some]
      rw [mark_found blank_nil rfl]
      rfl
  | cons value values =>
      obtain ⟨char, others, written', inked, noBracket, -⟩ := opens value List.mem_cons_self
      have first := reads value List.mem_cons_self (newline (depth + 1)) _
        (blank_newline (depth + 1))
        (ends_further (depth + 1) depth (values.map written) (']' :: rest))
      have more := moreElements_further (depth + 1) depth rest
        (fun other member => reads other (List.mem_cons_of_mem _ member))
        (length_lt_rounds (depth + 1) (values.map written) (newline depth ++ ']' :: rest))
      rw [List.map_cons, array, bracketedItems_cons, arrayOf, mark_found blank rfl]
      dsimp only [Option.bind_eq_bind, Option.bind_some]
      rw [written', List.cons_append] at first ⊢
      rw [mark_missed (blank_newline (depth + 1)) inked noBracket]
      dsimp only
      rw [first]
      dsimp only [Option.bind_some]
      rw [more]
      rfl

/-- Read one after the other, the members change the fields from the first to the last. -/
inductive FieldsRead (value : FieldReader β) : β → List (List Char) → β → Prop
  | nil (fields : β) : FieldsRead value fields [] fields
  | cons {fields next last : β} {item : List Char} {items : List (List Char)}
      (first : Reads (fieldOf value fields) item next)
      (others : FieldsRead value next items last) : FieldsRead value fields (item :: items) last

private theorem moreFields_further {value : FieldReader β} (depth outer : Nat) (rest : List Char)
    {fields last : β} {items : List (List Char)} (read : FieldsRead value fields items last)
    {rounds : Nat} (enough : items.length < rounds) :
    moreFields value rounds fields (further depth items ++ (newline outer ++ '\x7d' :: rest)) =
      some (last, rest) := by
  induction read generalizing rounds with
  | nil fields =>
      match rounds, enough with
      | rounds + 1, _ =>
          rw [further_nil, List.nil_append, moreFields, mark_found (blank_newline outer) rfl]
  | @cons fields next last item items first others inductionHypothesis =>
      match rounds, enough with
      | rounds + 1, enough =>
          have here := first (newline depth) _ (blank_newline depth)
            (ends_further depth outer items ('\x7d' :: rest))
          have behind := inductionHypothesis (Nat.lt_of_succ_lt_succ enough)
          rw [further_cons]
          simp only [List.append_assoc, List.cons_append]
          rw [moreFields, mark_of_comma (by decide), mark_comma]
          dsimp only [Option.bind_eq_bind, Option.bind_some]
          rw [here]
          exact behind

private theorem reads_object {value : FieldReader β} (depth : Nat) {fields last : β}
    {item : List Char} {items : List (List Char)} (opens : Opens item)
    (read : FieldsRead value fields (item :: items) last) :
    Reads (objectOf value fields) (object depth (item :: items)) last := by
  intro blanks rest blank _
  obtain ⟨char, others, written, inked, -, noBracket⟩ := opens
  cases read with
  | @cons _ next _ _ _ first more =>
      have here := first (newline (depth + 1)) _ (blank_newline (depth + 1))
        (ends_further (depth + 1) depth items ('\x7d' :: rest))
      have behind := moreFields_further (depth + 1) depth rest more
        (length_lt_rounds (depth + 1) items (newline depth ++ '\x7d' :: rest))
      rw [object, bracketedItems_cons, objectOf, mark_found blank rfl]
      dsimp only [Option.bind_eq_bind, Option.bind_some]
      rw [written, List.cons_append] at here ⊢
      rw [mark_missed (blank_newline (depth + 1)) inked noBracket]
      dsimp only
      rw [here]
      exact behind

private theorem reads_member {value : FieldReader β} (name : String) {fields next : β}
    {text : List Char} (read : Reads (value name fields) text next) :
    Reads (fieldOf value fields) (member name text) next := by
  intro blanks rest blank ends
  have named := reads_quoted name blanks (':' :: ' ' :: (text ++ rest)) blank
    (ends_cons rfl (by decide) _)
  have colon : mark ':' (':' :: ' ' :: (text ++ rest)) = some (' ' :: (text ++ rest)) :=
    mark_found blank_nil rfl _
  have field := read [' '] rest blank_space ends
  rw [member, List.append_assoc, List.cons_append, List.cons_append, fieldOf, named]
  dsimp only [Option.bind_eq_bind, Option.bind_some]
  rw [colon]
  exact field

private theorem reads_once {read : Reader α} {text : List Char} {value : α}
    (reads : Reads read text value) : Reads (once none read) text (some value) := by
  intro blanks rest blank ends
  rw [once, reads blanks rest blank ends]
  rfl

private theorem reads_map {read : Reader α} {text : List Char} {value : α} (change : α → β)
    (reads : Reads read text value) :
    Reads (fun text => (read text).map fun (value, rest) => (change value, rest)) text
      (change value) := by
  intro blanks rest blank ends
  dsimp only
  rw [reads blanks rest blank ends]
  rfl

private theorem mark_list_of_object {blanks : List Char} (blank : Blank blanks) (depth : Nat)
    (item : List Char) (items : List (List Char)) (rest : List Char) :
    mark '[' (blanks ++ (object depth (item :: items) ++ rest)) = none := by
  rw [object, bracketedItems_cons]
  exact mark_missed blank rfl (by decide) _

private theorem reads_object_or_list {value : FieldReader β} (list : Reader α)
    {close : β → Option α}
    (depth : Nat) {fields last : β} {item : List Char} {items : List (List Char)} {result : α}
    (opens : Opens item) (read : FieldsRead value fields (item :: items) last)
    (closes : close last = some result) :
    Reads (fun text =>
        if (mark '[' text).isSome then list text
        else do
          let (fields, rest) ← objectOf value fields text
          return (← close fields, rest))
      (object depth (item :: items)) result := by
  intro blanks rest blank ends
  have object := reads_object depth opens read blanks rest blank ends
  dsimp only
  rw [mark_list_of_object blank, Option.isSome_none, if_neg Bool.false_ne_true, object]
  dsimp only [Option.bind_eq_bind, Option.bind_some]
  rw [closes]
  rfl

private theorem reads_label {fields : StepFields} (missing : fields.label = none) (label : String) :
    Reads (stepField "label" fields) (quoted label) { fields with label := some label } := by
  have read := reads_once (reads_quoted label)
  rw [← missing] at read
  exact reads_map (fun label => { fields with label := label }) read

private theorem reads_options {fields : StepFields} (missing : fields.options = none)
    (options : List String) :
    Reads (stepField "options" fields) (array 3 (options.map quoted))
      { fields with options := some options } := by
  have listed : Reads (arrayOf string) (array 3 (options.map quoted)) options :=
    reads_array 3 (fun option _ => opens_quoted option) (fun option _ => reads_quoted option)
  have read := reads_once listed
  rw [← missing] at read
  exact reads_map (fun options => { fields with options := options }) read

private theorem reads_choice {fields : StepFields} (missing : fields.choice = none) {choice : Nat}
    (bounded : choice ≤ largestInteger) :
    Reads (stepField "choice" fields) (digits choice) { fields with choice := some choice } := by
  have read := reads_once (reads_digits bounded)
  rw [← missing] at read
  exact reads_map (fun choice => { fields with choice := choice }) read

private theorem reads_stepText {step : TraceStep} (bounded : step.choice ≤ largestInteger) :
    Reads Checkpoint.step (stepText step) step := by
  have fields : FieldsRead stepField .none _ _ :=
    .cons (reads_member "label" (reads_label rfl step.label))
      (.cons (reads_member "options" (reads_options rfl step.options))
        (.cons (reads_member "choice" (reads_choice rfl bounded)) (.nil _)))
  exact reads_object_or_list stepArray 2 (opens_member "label" _) fields rfl

private theorem reads_traceText {steps : Trace}
    (bounded : ∀ step ∈ steps, step.choice ≤ largestInteger) :
    Reads trace (traceText steps) steps := by
  have listed : Reads (arrayOf step) (array 1 (steps.map stepText)) steps :=
    reads_array 1 (fun step _ => opens_object 2 _ _)
      (fun step member => reads_stepText (bounded step member))
  have list : Reads (traceField "steps" none) (array 1 (steps.map stepText)) (some steps) :=
    reads_once listed
  have fields : FieldsRead traceField none _ _ := .cons (reads_member "steps" list) (.nil _)
  have closes : id (some steps) = some steps := rfl
  exact reads_object_or_list _ 0 (opens_member "steps" _) fields closes

private theorem read?_write {steps : Trace}
    (bounded : ∀ step ∈ steps, step.choice ≤ largestInteger) :
    read? (write steps) = some steps := by
  have read := reads_traceText bounded [] [] blank_nil ends_nil
  rw [List.nil_append, List.append_nil] at read
  rw [read?, write, String.toList_ofList, read]
  rfl

private theorem load_of_read? {text : String} {steps : Trace} (read : read? text = some steps) :
    load (some text.toUTF8) = .ok steps := by
  have decoded : String.fromUTF8? text.toUTF8 = some text := dif_pos text.isValidUTF8
  rw [load, decoded]
  dsimp only
  rw [read]

/-- The round trip.  A saved trace is loaded as the trace it was, with all its texts and with
choices up to the largest integer, whether in range or not; so no other trace is saved as the
same text. -/
theorem load_write (steps : Trace) (bounded : ∀ step ∈ steps, step.choice ≤ largestInteger) :
    load (some (write steps).toUTF8) = .ok steps ∧
      ∀ other : Trace, (∀ step ∈ other, step.choice ≤ largestInteger) →
        write other = write steps → other = steps := by
  refine ⟨load_of_read? (read?_write bounded), ?_⟩
  intro other otherBounded same
  have read := read?_write otherBounded
  rw [same, read?_write bounded] at read
  exact (Option.some.inj read).symm

/-- A decision under a label that needs every kind of escape, without options and with the
largest choice, and one with two names. -/
def awkward : Trace :=
  [⟨"\x22\x5c\n\x01😀", [], largestInteger⟩, ⟨"", ["main", "main.0"], 1⟩]

theorem load_awkward :
    (∀ step ∈ awkward, step.choice ≤ largestInteger) ∧
      stepText ⟨"\x22\x5c\n\x01😀", [], largestInteger⟩ =
        ("\x7b\n      \x22label\x22: \x22\x5c\x22\x5c\x5c\x5cn\x5cu0001😀\x22,\n" ++
          "      \x22options\x22: [],\n" ++
          "      \x22choice\x22: 18446744073709551615\n    \x7d").toList ∧
      load (some (write awkward).toUTF8) = .ok awkward := by
  have bounded : ∀ step ∈ awkward, step.choice ≤ largestInteger := by decide
  exact ⟨bounded, by decide +kernel, (load_write awkward bounded).1⟩

end ScheduleSearch.Checkpoint
