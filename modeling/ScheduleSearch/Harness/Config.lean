import ScheduleSearch.Text.Blank

/-!
# Configuration

How long to search and what to do with a failure.  The settings of an environment are read
leniently: one that is not set, not a text or not of the right form leaves the default.
-/

namespace ScheduleSearch

/-- How long to search and what to do with a failure. -/
structure Config where
  /-- The number of executions after which to stop, if any. -/
  maxIterations : Option Nat
  /-- The number of decisions allowed in one execution. -/
  maxDecisions : Nat
  /-- The file to which the trace of a failing execution is written, if any. -/
  checkpoint : Option String
  printTrace : Bool
  deriving DecidableEq, Repr, Inhabited

/-- The settings of an environment, as bytes; those that are not set are absent. -/
structure Environment where
  maxIterations : Option ByteArray
  maxDecisions : Option ByteArray
  checkpoint : Option ByteArray
  printTrace : Option ByteArray

namespace Config

/-- The number of decisions allowed where nothing else is set. -/
def defaultMaxDecisions : Nat := 10000

def default : Config where
  maxIterations := none
  maxDecisions := defaultMaxDecisions
  checkpoint := none
  printTrace := true

/-- The largest number a setting may have. -/
def largestCount : Nat := 0xffffffffffffffff

/-- The value of decimal digits, of which there must be at least one. -/
def ofDigits? (digits : List Char) : Option Nat :=
  if digits.isEmpty || !digits.all Char.isDigit then none
  else
    let value := digits.foldl (fun value digit => value * 10 + (digit.toNat - 48)) 0
    if value ≤ largestCount then some value else none

/-- The number that a setting stands for: digits, perhaps after a plus sign. -/
def count? : List Char → Option Nat
  | '+' :: digits => ofDigits? digits
  | digits => ofDigits? digits

/-- The truth value that a setting stands for. -/
def truth? (word : List Char) : Option Bool :=
  if word = ['t', 'r', 'u', 'e'] then some true
  else if word = ['f', 'a', 'l', 's', 'e'] then some false
  else none

/-- The text of a setting; bytes that are not a text count as not set. -/
def settingText (setting : Option ByteArray) : Option String :=
  setting.bind String.fromUTF8?

/-- The value of a setting, read without the blanks around it. -/
def settingValue {α : Type} (read : List Char → Option α) (setting : Option ByteArray) :
    Option α :=
  (settingText setting).bind fun text => read (Text.trimmed text)

/-- The configuration that an environment sets. -/
def ofEnvironment (environment : Environment) : Config where
  maxIterations := settingValue count? environment.maxIterations
  maxDecisions := (settingValue count? environment.maxDecisions).getD defaultMaxDecisions
  checkpoint := (settingText environment.checkpoint).filter fun path => !path.isEmpty
  printTrace := (settingValue truth? environment.printTrace).getD true

def isValid (config : Config) : Bool :=
  config.maxDecisions > 0 && config.maxIterations.all (· > 0)

/-- The configuration itself if it is valid, and else the default one. -/
def orDefault (config : Config) : Config :=
  if config.isValid then config else default

end Config

end ScheduleSearch
