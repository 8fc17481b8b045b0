/-!
# Lexemes of checkpoint files

A checkpoint is a JSON text.  This module reads and writes its smallest parts: blanks, quoted
strings and unsigned integers.  A reader takes the characters that are left and yields what
it read with the characters after it, or nothing if there is no such lexeme.

A quoted string may hold every character but control characters, quotes and backslashes,
which are escaped; writing escapes nothing else.
-/

namespace ScheduleSearch.Checkpoint

/-- A reader of one value. -/
abbrev Reader (α : Type) : Type := List Char → Option (α × List Char)

/-- The largest integer a checkpoint may hold. -/
def largestInteger : Nat := 0xffffffffffffffff

/-- The four characters that may stand between lexemes. -/
def isBlank (char : Char) : Bool :=
  char = ' ' || char = '\n' || char = '\t' || char = '\r'

/-- The text from its first character that is no blank. -/
def skipBlanks (text : List Char) : List Char :=
  text.dropWhile isBlank

/-- Reads one punctuation mark after blanks. -/
def mark (expected : Char) (text : List Char) : Option (List Char) :=
  match skipBlanks text with
  | char :: rest => if char = expected then some rest else none
  | [] => none

/-- The letter that stands for a character after a backslash, for those that have one. -/
def shortEscape? (char : Char) : Option Char :=
  if char = '\x22' then some '\x22'
  else if char = '\x5c' then some '\x5c'
  else if char = '\x08' then some 'b'
  else if char = '\x0c' then some 'f'
  else if char = '\n' then some 'n'
  else if char = '\r' then some 'r'
  else if char = '\t' then some 't'
  else none

/-- The character that a letter after a backslash stands for. -/
def unescape? (letter : Char) : Option Char :=
  if letter = '\x22' then some '\x22'
  else if letter = '\x5c' then some '\x5c'
  else if letter = '/' then some '/'
  else if letter = 'b' then some '\x08'
  else if letter = 'f' then some '\x0c'
  else if letter = 'n' then some '\n'
  else if letter = 'r' then some '\r'
  else if letter = 't' then some '\t'
  else none

/-- Whether a character may not stand in a string as it is. -/
def isControl (char : Char) : Bool :=
  char.toNat < 0x20

/-- The lowercase hexadecimal digit of a number below sixteen. -/
def hexDigit (number : Nat) : Char :=
  if number < 10 then Char.ofNat (number + 48) else Char.ofNat (number + 87)

def hexValue? (digit : Char) : Option Nat :=
  let code := digit.toNat
  if 48 ≤ code ∧ code ≤ 57 then some (code - 48)
  else if 97 ≤ code ∧ code ≤ 102 then some (code - 87)
  else if 65 ≤ code ∧ code ≤ 70 then some (code - 55)
  else none

/-- The number that four hexadecimal digits write. -/
def unit? (first second third fourth : Char) : Option Nat := do
  let first ← hexValue? first
  let second ← hexValue? second
  let third ← hexValue? third
  let fourth ← hexValue? fourth
  return ((first * 16 + second) * 16 + third) * 16 + fourth

/-- Whether a unit is the first half of a character beyond the basic plane. -/
def isLeadingHalf (number : Nat) : Bool :=
  0xd800 ≤ number && number < 0xdc00

/-- Whether a unit is the second half of a character beyond the basic plane. -/
def isTrailingHalf (number : Nat) : Bool :=
  0xdc00 ≤ number && number < 0xe000

/-- The character that two halves make. -/
def joinHalves (leading trailing : Nat) : Char :=
  Char.ofNat (0x10000 + (leading - 0xd800) * 0x400 + (trailing - 0xdc00))

/-- How a character is written inside quotes. -/
def escaped (char : Char) : List Char :=
  match shortEscape? char with
  | some letter => ['\x5c', letter]
  | none =>
      if isControl char then
        ['\x5c', 'u', '0', '0', hexDigit (char.toNat / 16), hexDigit (char.toNat % 16)]
      else [char]

def quoted (text : String) : List Char :=
  '\x22' :: text.toList.flatMap escaped ++ ['\x22']

def prepend (char : Char) (read : List Char × List Char) : List Char × List Char :=
  (char :: read.1, read.2)

/-- Reads the rest of a string up to its closing quote. -/
def stringBody : List Char → Option (List Char × List Char)
  | [] => none
  | '\x22' :: rest => some ([], rest)
  | '\x5c' :: 'u' :: a :: b :: c :: d :: rest =>
      match unit? a b c d with
      | none => none
      | some number =>
          if isTrailingHalf number then none
          else if isLeadingHalf number then
            match rest with
            | '\x5c' :: 'u' :: e :: f :: g :: h :: rest =>
                match unit? e f g h with
                | none => none
                | some trailing =>
                    if isTrailingHalf trailing then
                      (stringBody rest).map (prepend (joinHalves number trailing))
                    else none
            | _ => none
          else (stringBody rest).map (prepend (Char.ofNat number))
  | '\x5c' :: letter :: rest =>
      match unescape? letter with
      | none => none
      | some char => (stringBody rest).map (prepend char)
  | char :: rest =>
      if char = '\x5c' || isControl char then none
      else (stringBody rest).map (prepend char)

def string : Reader String := fun text => do
  let opened ← mark '\x22' text
  let (chars, rest) ← stringBody opened
  return (String.ofList chars, rest)

/-- Passes over the rest of a string.  The halves of characters need not fit together. -/
def skipStringBody : List Char → Option (List Char)
  | [] => none
  | '\x22' :: rest => some rest
  | '\x5c' :: 'u' :: a :: b :: c :: d :: rest =>
      if (unit? a b c d).isSome then skipStringBody rest else none
  | '\x5c' :: letter :: rest =>
      if (unescape? letter).isSome then skipStringBody rest else none
  | char :: rest => if char = '\x5c' || isControl char then none else skipStringBody rest

/-- How an integer is written. -/
def digits (number : Nat) : List Char :=
  (toString number).toList

def valueOf (digits : List Char) : Nat :=
  digits.foldl (fun value digit => value * 10 + (digit.toNat - 48)) 0

/-- Whether digits write a number as it is usually written, without needless zeros. -/
def isPlain : List Char → Bool
  | [] => false
  | [_] => true
  | first :: _ => first != '0'

/-- Whether a number goes on after its leading digits, so that it is not an integer. -/
def goesOn : List Char → Bool
  | char :: _ => char = '.' || char = 'e' || char = 'E'
  | [] => false

def unsigned : Reader Nat := fun text =>
  let text := skipBlanks text
  let read := text.takeWhile Char.isDigit
  let rest := text.dropWhile Char.isDigit
  if isPlain read && !goesOn rest && valueOf read ≤ largestInteger then
    some (valueOf read, rest)
  else none

/-- Passes over one or more digits. -/
def skipDigits (text : List Char) : Option (List Char) :=
  match text with
  | char :: rest => if char.isDigit then some (rest.dropWhile Char.isDigit) else none
  | [] => none

/-- Passes over an exponent if there is one. -/
def skipExponent (text : List Char) : Option (List Char) :=
  match text with
  | mark :: rest =>
      if mark = 'e' || mark = 'E' then
        match rest with
        | sign :: unsigned =>
            if sign = '+' || sign = '-' then skipDigits unsigned else skipDigits rest
        | [] => none
      else some text
  | [] => some []

/-- Passes over the digits after a point, and over an exponent, as far as there are any. -/
def skipFraction (text : List Char) : Option (List Char) :=
  match text with
  | '.' :: rest => (skipDigits rest).bind skipExponent
  | _ => skipExponent text

/-- Passes over a number without its sign. -/
def skipNumber (text : List Char) : Option (List Char) :=
  let read := text.takeWhile Char.isDigit
  if isPlain read then skipFraction (text.dropWhile Char.isDigit) else none

def skipWord (word : List Char) (text : List Char) : Option (List Char) :=
  if word.isPrefixOf text then some (text.drop word.length) else none

end ScheduleSearch.Checkpoint
