import EventLog.Rehearsal.Recorder

/-!
# Rehearsals

A rehearsal runs an engine in a fixed order of events.  The worker takes the oldest
event as soon as there is one, renders it and then waits with it; a delivery needs
permission.  So the state after each action is determined.
-/

namespace EventLog

/-- An engine in rehearsal. -/
structure Rehearsal where
  engine : Engine Rehearsal.Item Rehearsal.Recorder
  /-- Why no thread can be made, if none can. -/
  spawnFault : Option IoFault := none
  /-- The target, once it was taken back. -/
  taken : Option Rehearsal.Recorder := none
  /-- The number of marked payloads that were offered. -/
  offered : Nat := 0

namespace Rehearsal

/-! ## Observing -/

/-- The target, wherever it is. -/
def recorder? (r : Rehearsal) : Option Recorder :=
  r.engine.target?.or (r.taken.or r.engine.lost)

/-- All bytes that got through so far. -/
def output (r : Rehearsal) : List UInt8 :=
  match r.recorder? with
  | none => []
  | some recorder => recorder.publisher.destination.output

/-- The number of marked payloads that exist. -/
def live (r : Rehearsal) : Nat :=
  r.offered - r.engine.shared.destroyed.countP Item.isMarked

/-- The number of records that are not free. -/
def inUse (r : Rehearsal) : Nat :=
  r.engine.capacity - r.engine.availableSlots

/-! ## Acting -/

/-- The worker takes an event, if it looks for one and there is one. -/
def poll (r : Rehearsal) : Rehearsal :=
  { r with engine := r.engine.workerTake }

/-- The worker delivers what it holds, and takes the next. -/
def permit (r : Rehearsal) : Rehearsal :=
  { r with engine := r.engine.workerDeliver }.poll

/-- Permits a number of deliveries, at most one for each record in use. -/
def permitUpTo (r : Rehearsal) (n : Nat) : Rehearsal :=
  (min n r.inUse).repeat permit r

/-- Starts the engine. -/
def start (r : Rehearsal) : Reply × Rehearsal :=
  let (reply, engine) := r.engine.start r.spawnFault
  (reply, { r with engine }.poll)

/-- Logs a payload. -/
def log (r : Rehearsal) (a : Item) : Reply × Rehearsal :=
  let (reply, engine) := r.engine.enqueue r.spawnFault a
  let offered := r.offered + if a.isMarked then 1 else 0
  (reply, { r with engine, offered }.poll)

/-- Logs payloads in order, up to the first call that does not return. -/
def logAll (r : Rehearsal) : List Item → Reply × Rehearsal
  | [] => (.done, r)
  | a :: rest =>
    match r.log a with
    | (.panicked p, r) => (.panicked p, r)
    | (_, r) => logAll r rest

/-- The `i`-th of a number of equal events. -/
def numbered (i : Nat) : Item :=
  .event (.generic {
    timestamp := UInt64.ofNat i, threadId := 1, requestId := UInt32.ofNat i })

/-- Logs a number of equal events. -/
def logMany (r : Rehearsal) (n : Nat) : Reply × Rehearsal :=
  r.logAll ((List.range n).map numbered)

/-- Shuts the engine down; all deliveries are permitted. -/
def shutdown (r : Rehearsal) : Rehearsal :=
  { r with engine := r.engine.shutdown }

/-- Takes the target back. -/
def take (r : Rehearsal) : Option Recorder × Rehearsal :=
  let (recorder, engine) := r.engine.takeTarget
  (recorder, { r with engine, taken := recorder.or r.taken })

/-- Gives the engine up. -/
def drop (r : Rehearsal) : Rehearsal :=
  { r with engine := r.engine.drop }

/-! ## Beginnings -/

/-- Where the target of a rehearsal writes to. -/
inductive Place where
  | memory
  | file
  /-- To a file in a directory that does not exist. -/
  | missing
  /-- To a device without space. -/
  | full
  deriving DecidableEq, Repr

/-- The name of the log file at a place. -/
def Place.path : Place → String
  | memory => ""
  | file => "events.log"
  | missing => "missing/events.log"
  | full => FileTree.fullDeviceName

/-- The outlet at a place, and what is remarked about it. -/
def Place.outlet : Place → Outlet × List Diagnostic
  | memory => (.memory .memory, [])
  | place =>
    let (log, files, remarks) := LogFile.new {} place.path
    (.stored ⟨log, files⟩, remarks)

/-- A rehearsal with a new engine.  `checked` asks for a check of the settings. -/
def begin (config : Config) (sink : Sink) (place : Place) (checked : Bool)
    (spawnFault : Option IoFault) : Except Engine.Refusal Rehearsal :=
  let (outlet, remarks) := place.outlet
  let recorder : Recorder := { publisher := ⟨outlet, sink⟩ }
  let made := if checked then Engine.tryNew config recorder
    else (Engine.new config recorder).mapError Engine.Refusal.panic
  made.map fun engine =>
    { engine := { engine with shared := engine.shared.remarkAll .caller remarks }, spawnFault }

end Rehearsal

end EventLog
