import EventLog.Fault

/-!
# Diagnostics

What the log says about itself: to its caller's side or to its worker's side, at a
level, with the values that the message is about.
-/

namespace EventLog

/-- How many events took which way. -/
structure Stats where
  /-- Discarded instead of delivered. -/
  dropped : Nat := 0
  /-- Accepted into the queue. -/
  enqueued : Nat := 0
  written : Nat := 0
  deriving DecidableEq, Repr, Inhabited

namespace Stats

/-- The shown form of the counters. -/
def describe (s : Stats) : String :=
  "Stats \x7b dropped: " ++ toString s.dropped ++ ", enqueued: " ++ toString s.enqueued ++
    ", written: " ++ toString s.written ++ " \x7d"

end Stats

/-- One remark of the log about itself. -/
inductive Diagnostic where
  /-- A log file cannot be opened. -/
  | openFailed (path : String) (cause : IoFault)
  /-- A message did not get into its file. -/
  | fileWriteFailed (path : String) (cause : IoFault)
  /-- A message did not get to the terminal. -/
  | terminalWriteFailed (cause : IoFault)
  | workerStarted (name : String)
  | workerStopped (name : String)
  /-- The worker did not survive an event. -/
  | workerPanicked
  /-- Events were left in the queue at shutdown. -/
  | discarded (count : Nat)
  | shutDown (stats : Stats)
  /-- The worker's thread cannot be made. -/
  | spawnFailed (cause : IoFault)
  deriving DecidableEq, Repr

namespace Diagnostic

/-- The words of a remark, after its level. -/
def render : Diagnostic → String
  | openFailed path cause =>
    "WARN Failed to open log file, messages will be skipped path=" ++ path ++
      " error=" ++ cause.message
  | fileWriteFailed path cause =>
    "DEBUG Dropping message, file write failed path=" ++ path ++ " error=" ++ cause.message
  | terminalWriteFailed cause =>
    "DEBUG Dropping message, terminal write failed error=" ++ cause.message
  | workerStarted name => "DEBUG Worker started name=" ++ name
  | workerStopped name => "DEBUG Worker stopped name=" ++ name
  | workerPanicked => "ERROR Worker thread panicked"
  | discarded count =>
    "DEBUG Discarded queued events at shutdown discarded=" ++ toString count
  | shutDown s =>
    "INFO Engine shut down enqueued=" ++ toString s.enqueued ++ " written=" ++
      toString s.written ++ " dropped=" ++ toString s.dropped
  | spawnFailed cause =>
    "ERROR Failed to spawn worker thread, events will be dropped error=" ++ cause.message

end Diagnostic

end EventLog
