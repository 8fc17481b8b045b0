import Mathlib.Tactic.SplitIfs
import ScheduleSearch.Checkpoint.Lexeme

/-!
# What is written is read again

`Reads read text value` says that a reader finds a value in its written form, with any blanks
before it and whatever may follow a value behind it.  This module shows it of strings and of
integers.

A string is read character by character, so the argument is about one written character and
whatever comes after it.  An integer is read as far as there are digits; that is why `Ends`
keeps out what a number could go on with.
-/

namespace ScheduleSearch.Checkpoint

/-- Only characters that may stand between lexemes. -/
def Blank (text : List Char) : Prop :=
  ∀ char ∈ text, isBlank char = true

/-- The text does not start with what a number could go on with. -/
def Ends (text : List Char) : Prop :=
  ∀ char ∈ text.head?, char.isDigit = false ∧ char ≠ '.' ∧ char ≠ 'e' ∧ char ≠ 'E'

/-- The reader finds the value in the text, whatever blanks stand before it, and leaves what
comes behind it. -/
def Reads {α : Type} (read : Reader α) (text : List Char) (value : α) : Prop :=
  ∀ blanks rest, Blank blanks → Ends rest → read (blanks ++ (text ++ rest)) = some (value, rest)

theorem blank_nil : Blank [] := by
  intro char member
  cases member

theorem blank_space : Blank [' '] := by
  intro char member
  rw [List.mem_singleton.1 member]
  rfl

theorem ends_nil : Ends [] := by
  intro char member
  cases member

theorem ends_cons {char : Char} (noDigit : char.isDigit = false)
    (noMark : char ≠ '.' ∧ char ≠ 'e' ∧ char ≠ 'E') (rest : List Char) : Ends (char :: rest) := by
  intro first member
  rw [← Option.some.inj member]
  exact ⟨noDigit, noMark⟩

private theorem skipBlanks_append {blanks : List Char} (blank : Blank blanks) (text : List Char) :
    skipBlanks (blanks ++ text) = skipBlanks text :=
  List.dropWhile_append_of_pos blank

private theorem skipBlanks_cons {char : Char} (inked : isBlank char = false) (rest : List Char) :
    skipBlanks (char :: rest) = char :: rest := by
  rw [skipBlanks, List.dropWhile_cons_of_neg]
  rw [inked]
  exact Bool.false_ne_true

private theorem mark_append {blanks : List Char} (blank : Blank blanks) (expected : Char)
    (text : List Char) : mark expected (blanks ++ text) = mark expected text := by
  rw [mark, mark, skipBlanks_append blank]

private theorem mark_cons {char : Char} (inked : isBlank char = false) (expected : Char)
    (rest : List Char) :
    mark expected (char :: rest) = if char = expected then some rest else none := by
  rw [mark, skipBlanks_cons inked]

theorem mark_found {blanks : List Char} (blank : Blank blanks) {expected : Char}
    (inked : isBlank expected = false) (rest : List Char) :
    mark expected (blanks ++ expected :: rest) = some rest := by
  rw [mark_append blank, mark_cons inked, if_pos rfl]

theorem mark_missed {blanks : List Char} (blank : Blank blanks) {char expected : Char}
    (inked : isBlank char = false) (different : char ≠ expected) (rest : List Char) :
    mark expected (blanks ++ char :: rest) = none := by
  rw [mark_append blank, mark_cons inked, if_neg different]

private theorem unescape?_of_shortEscape? {char letter : Char}
    (short : shortEscape? char = some letter) :
    letter ≠ 'u' ∧ unescape? letter = some char := by
  unfold shortEscape? at short
  split_ifs at short with quote backslash backspace formFeed lineFeed carriageReturn tabulator
  all_goals
    obtain rfl := Option.some.inj short
    subst char
    decide

private theorem plain_of_shortEscape? {char : Char} (long : shortEscape? char = none) :
    char ≠ '\x22' ∧ char ≠ '\x5c' := by
  constructor
  · rintro rfl
    cases long
  · rintro rfl
    cases long

private theorem hexValue?_hexDigit : ∀ number < 16, hexValue? (hexDigit number) = some number := by
  decide

private theorem unit?_of_isControl {char : Char} (control : isControl char = true) :
    unit? '0' '0' (hexDigit (char.toNat / 16)) (hexDigit (char.toNat % 16)) =
      some char.toNat := by
  have small : char.toNat < 32 := of_decide_eq_true control
  have zero : hexValue? '0' = some 0 := rfl
  rw [unit?, zero, hexValue?_hexDigit _ (by omega), hexValue?_hexDigit _ (by omega)]
  change some (((0 * 16 + 0) * 16 + char.toNat / 16) * 16 + char.toNat % 16) = some char.toNat
  congr 1
  omega

private theorem stringBody_escaped (char : Char) (rest : List Char) :
    stringBody (escaped char ++ rest) = (stringBody rest).map (prepend char) := by
  unfold escaped
  split
  next letter short =>
    obtain ⟨noUnit, unescapes⟩ := unescape?_of_shortEscape? short
    change stringBody ('\x5c' :: letter :: rest) = _
    rw [stringBody.eq_4 letter rest (fun _ _ _ _ _ isUnit => absurd isUnit noUnit), unescapes]
  next long =>
    obtain ⟨noQuote, noBackslash⟩ := plain_of_shortEscape? long
    split
    next control =>
      -- Surrogates start far above the control characters, so no second escape is waited for.
      have small : char.toNat < 32 := of_decide_eq_true control
      have noTrailingHalf : isTrailingHalf char.toNat = false := by
        rw [isTrailingHalf, Bool.and_eq_false_iff]
        left
        rw [decide_eq_false_iff_not]
        omega
      have noLeadingHalf : isLeadingHalf char.toNat = false := by
        rw [isLeadingHalf, Bool.and_eq_false_iff]
        left
        rw [decide_eq_false_iff_not]
        omega
      simp only [List.cons_append, List.nil_append]
      rw [stringBody.eq_3, unit?_of_isControl control]
      simp only [noTrailingHalf, noLeadingHalf, Bool.false_eq_true, if_false, Char.ofNat_toNat]
    next printable =>
      change stringBody (char :: rest) = _
      rw [stringBody.eq_5 char rest noQuote
        (fun _ _ _ _ _ impossible => absurd impossible noBackslash)
        (fun _ _ impossible => absurd impossible noBackslash)]
      rw [if_neg]
      simp [noBackslash, printable]

private theorem stringBody_flatMap_escaped (chars rest : List Char) :
    stringBody (chars.flatMap escaped ++ '\x22' :: rest) = some (chars, rest) := by
  induction chars with
  | nil => exact stringBody.eq_2 rest
  | cons char chars inductionHypothesis =>
      rw [List.flatMap_cons, List.append_assoc, stringBody_escaped, inductionHypothesis]
      rfl

theorem reads_quoted (text : String) : Reads string (quoted text) text := by
  intro blanks rest blank _
  have opened : mark '\x22' (blanks ++ (quoted text ++ rest)) =
      some (text.toList.flatMap escaped ++ '\x22' :: rest) := by
    rw [quoted, List.cons_append, List.cons_append, List.append_assoc]
    exact mark_found blank rfl _
  unfold string
  rw [opened]
  change (stringBody (text.toList.flatMap escaped ++ '\x22' :: rest)).bind _ = _
  rw [stringBody_flatMap_escaped]
  change some (String.ofList text.toList, rest) = _
  rw [String.ofList_toList]

private theorem digits_eq (number : Nat) : digits number = Nat.toDigits 10 number := by
  rw [digits, Nat.toString_eq_ofList_toDigits, String.toList_ofList]

private theorem isDigit_of_mem_digits {number : Nat} {digit : Char}
    (member : digit ∈ digits number) :
    digit.isDigit = true := by
  rw [digits_eq] at member
  exact Nat.isDigit_of_mem_toDigits (by decide) (by decide) member

private theorem valueOf_digits (number : Nat) : valueOf (digits number) = number := by
  have commuted : valueOf (digits number) = Nat.ofDigitChars 10 (digits number) 0 := by
    rw [Nat.ofDigitChars_eq_foldl, valueOf]
    congr 1
    funext value digit
    rw [Nat.mul_comm value 10]
    rfl
  rw [commuted, digits_eq, Nat.ofDigitChars_ten_toDigits]

private theorem head?_toDigits_ne {number : Nat} (positive : 0 < number) :
    (Nat.toDigits 10 number).head? ≠ some '0' := by
  induction number using Nat.strongRecOn with
  | ind number inductionHypothesis =>
      rw [Nat.toDigits_eq_if (by decide)]
      split
      next single =>
        have digit : ∀ figure < 10, 0 < figure → figure.digitChar ≠ '0' := by decide
        exact fun equal => digit number single positive (Option.some.inj equal)
      next =>
        rw [List.head?_append, Option.or_of_isSome (List.isSome_head?.2 Nat.toDigits_ne_nil)]
        exact inductionHypothesis (number / 10) (by omega) (by omega)

private theorem isPlain_digits (number : Nat) : isPlain (digits number) = true := by
  rw [digits_eq]
  cases number with
  | zero => rfl
  | succ previous =>
      have leading := head?_toDigits_ne (Nat.succ_pos previous)
      have written : Nat.toDigits 10 (previous + 1) ≠ [] := Nat.toDigits_ne_nil
      match Nat.toDigits 10 (previous + 1), leading, written with
      | [_], _, _ => rfl
      | first :: _ :: _, leading, _ =>
          exact bne_iff_ne.2 fun equal => leading (congrArg some equal)

private theorem takeWhile_isDigit_digits (number : Nat) {rest : List Char} (ends : Ends rest) :
    (digits number ++ rest).takeWhile Char.isDigit = digits number ∧
      (digits number ++ rest).dropWhile Char.isDigit = rest := by
  have all : ∀ digit ∈ digits number, digit.isDigit = true := fun _ => isDigit_of_mem_digits
  rw [List.takeWhile_append_of_pos all, List.dropWhile_append_of_pos all]
  cases rest with
  | nil => exact ⟨List.append_nil _, rfl⟩
  | cons char rest =>
      have noDigit : ¬ char.isDigit = true := by
        rw [(ends char rfl).1]
        exact Bool.false_ne_true
      rw [List.takeWhile_cons_of_neg noDigit, List.dropWhile_cons_of_neg noDigit]
      exact ⟨List.append_nil _, rfl⟩

private theorem goesOn_of_ends {text : List Char} (ends : Ends text) : goesOn text = false := by
  cases text with
  | nil => rfl
  | cons char rest =>
      obtain ⟨-, noPoint, noSmall, noCapital⟩ := ends char rfl
      simp [goesOn, noPoint, noSmall, noCapital]

private theorem skipBlanks_digits (number : Nat) (rest : List Char) :
    skipBlanks (digits number ++ rest) = digits number ++ rest := by
  have written : digits number ≠ [] := by
    rw [digits_eq]
    exact Nat.toDigits_ne_nil
  have all : ∀ digit ∈ digits number, digit.isDigit = true := fun _ => isDigit_of_mem_digits
  match digits number, written, all with
  | first :: others, _, all =>
      have digit := all first List.mem_cons_self
      refine skipBlanks_cons ?_ (others ++ rest)
      rw [← Bool.not_eq_true]
      intro blank
      simp only [isBlank, Bool.or_eq_true, decide_eq_true_eq] at blank
      rcases blank with ((rfl | rfl) | rfl) | rfl <;> cases digit

theorem reads_digits {number : Nat} (bounded : number ≤ largestInteger) :
    Reads unsigned (digits number) number := by
  intro blanks rest blank ends
  obtain ⟨taken, left⟩ := takeWhile_isDigit_digits number ends
  rw [unsigned, skipBlanks_append blank, skipBlanks_digits]
  rw [taken, left, isPlain_digits, goesOn_of_ends ends, valueOf_digits]
  simp [bounded]

end ScheduleSearch.Checkpoint
