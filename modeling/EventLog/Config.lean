import EventLog.Fault
import EventLog.Text.Basic
import EventLog.Text.Decimal

/-!
# Configuration

The settings of an engine, their check, and their override by named values such as
those of the environment.  An override stops at the first value that is not
acceptable.
-/

namespace EventLog

/-! ## Settings -/

/-- The largest pool: every record and the absence of one need a number of thirty-two
bits. -/
def maxPoolCapacity : Nat := UInt32.size - 2

/-- The size of a pool when none is asked for. -/
def defaultPoolCapacity : Nat := 1024

/-- The settings of an engine. -/
structure Config where
  /-- The number of record slots. -/
  poolCapacity : Nat := defaultPoolCapacity
  /-- How long the worker sleeps when there is nothing to do, in nanoseconds. -/
  idleSleep : Nat := 50 * Duration.microsecond
  /-- Queued events are delivered at shutdown, not discarded. -/
  drainOnShutdown : Bool := true
  workerName : String := "sherlog-worker"
  deriving DecidableEq, Repr, Inhabited

namespace Config

/-- The shown form of a configuration. -/
def describe (c : Config) : String :=
  "EngineConfig \x7b pool_capacity: " ++ toString c.poolCapacity ++
    ", idle_sleep: " ++ String.ofList (Duration.write c.idleSleep) ++
    ", drain_on_shutdown: " ++ (if c.drainOnShutdown then "true" else "false") ++
    ", worker_name: " ++ Literal.ofString c.workerName ++ " \x7d"

/-- The character zero, which no thread name may contain. -/
def zero : Char := '\x00'

/-- Checks what the types do not: the pool can be numbered and the thread can be
named. -/
def validate (c : Config) : Except Fault Unit :=
  if maxPoolCapacity < c.poolCapacity then
    .error (.invalidConfig "pool_capacity" (toString c.poolCapacity))
  else if zero ∈ c.workerName.toList then
    .error (.invalidConfig "worker_name" c.workerName)
  else .ok ()

/-! ## Overrides -/

/-- The settings that can be overridden. -/
inductive Setting where
  | poolCapacity
  | idleSleep
  | drainOnShutdown
  deriving DecidableEq, Repr

/-- All of them, in the order in which they are looked up. -/
def Setting.all : List Setting := [poolCapacity, idleSleep, drainOnShutdown]

/-- The name under which a setting is looked up. -/
def Setting.key : Setting → String
  | poolCapacity => "SHERLOG_POOL_CAPACITY"
  | idleSleep => "SHERLOG_IDLE_SLEEP_US"
  | drainOnShutdown => "SHERLOG_DRAIN_ON_SHUTDOWN"

/-- Reads a number, blanks around it left out. -/
def readNumber? (value : String) : Option Nat :=
  Decimal.read? Decimal.max64 (Text.trim value.toList)

/-- Reads a number of records. -/
def readCapacity? (value : String) : Option Nat :=
  (readNumber? value).filter (· ≤ maxPoolCapacity)

/-- Reads a time to sleep, which is given in microseconds. -/
def readSleep? (value : String) : Option Nat :=
  (readNumber? value).map (· * Duration.microsecond)

/-- The words for yes. -/
def yesWords : List Text := ["1", "true", "yes", "on"].map String.toList

/-- The words for no. -/
def noWords : List Text := ["0", "false", "no", "off"].map String.toList

/-- Reads a flag: one of eight words in any ASCII case, blanks around it left out. -/
def readFlag? (value : String) : Option Bool :=
  let word := (Text.trim value.toList).map Char.toLower
  if word ∈ yesWords then some true else if word ∈ noWords then some false else none

/-- The configuration with one setting read from a value; `none` if the value is not
acceptable. -/
def override? (c : Config) (value : String) : Setting → Option Config
  | .poolCapacity => (readCapacity? value).map fun n => { c with poolCapacity := n }
  | .idleSleep => (readSleep? value).map fun n => { c with idleSleep := n }
  | .drainOnShutdown => (readFlag? value).map fun b => { c with drainOnShutdown := b }

/-- What a sequence of overrides did. -/
structure Overlay where
  /-- The keys that were looked up, in order. -/
  asked : List String
  /-- The new configuration, or the first value that was not acceptable. -/
  result : Except Fault Config

/-- Overrides the given settings in order, up to the first value that is not
acceptable. -/
def overlaySettings (lookup : String → Option String) : Config → List Setting → Overlay
  | c, [] => ⟨[], .ok c⟩
  | c, s :: rest =>
    match lookup s.key with
    | none =>
      let tail := overlaySettings lookup c rest
      ⟨s.key :: tail.asked, tail.result⟩
    | some value =>
      match c.override? value s with
      | none => ⟨[s.key], .error (.invalidConfig s.key value)⟩
      | some c' =>
        let tail := overlaySettings lookup c' rest
        ⟨s.key :: tail.asked, tail.result⟩

/-- Overrides every setting that `lookup` knows. -/
def overlay (c : Config) (lookup : String → Option String) : Overlay :=
  overlaySettings lookup c Setting.all

/-- The value of an environment variable: a variable whose bytes are not UTF-8 counts
as not set. -/
def environmentValue? (bytes : ByteArray) : Option String :=
  String.fromUTF8? bytes

end Config

end EventLog
