import EventLog.Engine.Worker

/-!
# Engines

An engine carries events from producers to a delivery target.  It starts its worker
with the first event or when it is told to, and after its shutdown it only counts what
it drops.  The target is with the engine until the worker has it, and with the engine
again after shutdown, until it is taken back.
-/

namespace EventLog

/-! ## State -/

/-- The stages in the life of an engine. -/
inductive Lifecycle (δ : Type) where
  /-- Not started; the engine has the target. -/
  | idle (target : δ)
  /-- Started; the worker has the target. -/
  | running (worker : Worker δ)
  /-- The worker could not be started. -/
  | failed
  /-- Shut down; the target, if it is still there, can be taken back. -/
  | stopped (target : Option δ)
  deriving Repr

/-- An engine with payloads in `α` and a target in `δ`. -/
structure Engine (α δ : Type) where
  config : Config
  /-- What producers and worker share. -/
  shared : Shared α
  /-- A start ran to its end, so that offering an event does not start again. -/
  started : Bool := false
  lifecycle : Lifecycle δ
  /-- The target, once it was lost with a worker or for want of one. -/
  lost : Option δ := none

/-- What a call comes back with. -/
inductive Reply where
  | done
  | refused (fault : Fault)
  /-- It did not return. -/
  | panicked (panic : Panic)
  deriving DecidableEq, Repr

namespace Engine

variable {α δ : Type}

/-! ## Making and observing -/

/-- An engine for a target.  A pool that is too large is not made. -/
def new (config : Config) (target : δ) : Except Panic (Engine α δ) :=
  match Shared.new config.poolCapacity with
  | .error p => .error p
  | .ok shared => .ok { config, shared, lifecycle := .idle target }

/-- Why an engine is not made. -/
inductive Refusal where
  /-- The settings are not acceptable. -/
  | fault (fault : Fault)
  /-- The pool is too large. -/
  | panic (panic : Panic)
  deriving DecidableEq, Repr

/-- An engine for a target, after a check of the settings. -/
def tryNew (config : Config) (target : δ) : Except Refusal (Engine α δ) :=
  match config.validate with
  | .error f => .error (.fault f)
  | .ok _ =>
    match new config target with
    | .error p => .error (.panic p)
    | .ok e => .ok e

/-- The counters. -/
def stats (e : Engine α δ) : Stats := e.shared.stats

/-- Events are accepted. -/
def isAccepting (e : Engine α δ) : Bool := e.shared.accepting

/-- The number of record slots. -/
def capacity (e : Engine α δ) : Nat := e.shared.capacity

/-- The number of free record slots. -/
def availableSlots (e : Engine α δ) : Nat := e.shared.available

/-- The target, wherever the engine has it. -/
def target? (e : Engine α δ) : Option δ :=
  match e.lifecycle with
  | .idle target => some target
  | .running worker => worker.target?
  | .failed => none
  | .stopped target => target

/-- The shown form of an engine. -/
def describe (e : Engine α δ) : String :=
  "Engine \x7b config: " ++ e.config.describe ++ ", stats: " ++ e.stats.describe ++
    ", pool: " ++ e.shared.pool.describe ++ " \x7d"

/-! ## Starting -/

/-- Adds a remark of the caller's side. -/
def remark (e : Engine α δ) (side : Side) (d : Diagnostic) : Engine α δ :=
  { e with shared := e.shared.remark side d }

/-- Starts the worker, unless that was done before.  `spawnFault` says why no thread
can be made, if none can. -/
def start (e : Engine α δ) (spawnFault : Option IoFault) : Reply × Engine α δ :=
  match e.lifecycle with
  | .idle target =>
    let failed := { e with lifecycle := .failed, lost := some target }
    if Config.zero ∈ e.config.workerName.toList then
      (.panicked (.zeroInThreadName e.config.workerName), failed)
    else
      match spawnFault with
      | none =>
        (.done,
          { e with started := true, lifecycle := .running (.start target) }.remark .worker
            (.workerStarted e.config.workerName))
      | some cause =>
        (.refused (.workerSpawn cause),
          { failed with
            started := true
            shared := { failed.shared with accepting := false } }.remark .caller
            (.spawnFailed cause))
  | .running _ => (.done, e)
  | .failed => (.refused .shutDown, e)
  | .stopped _ => (.refused .shutDown, e)

/-- Starts the worker if no start ran to its end yet. -/
def ensureStarted (e : Engine α δ) (spawnFault : Option IoFault) : Reply × Engine α δ :=
  if e.started then (.done, e) else e.start spawnFault

/-! ## Events -/

/-- Offers an event.  It is discarded if the engine does not accept events or has no
free record; the caller only sees the counters. -/
def enqueue (e : Engine α δ) (spawnFault : Option IoFault) (a : α) : Reply × Engine α δ :=
  match e.ensureStarted spawnFault with
  | (.panicked p, e) => (.panicked p, { e with shared := e.shared.destroy a })
  | (_, e) => (.done, { e with shared := e.shared.offer a })

variable [Payload α] [Target α δ]

/-- The engine after a step of its worker. -/
def afterProgress (e : Engine α δ) (p : Worker.Progress α δ) : Engine α δ :=
  { e with shared := p.shared, lifecycle := .running p.worker, lost := p.lost.or e.lost }

/-- The worker takes the next event and renders it. -/
def workerTake (e : Engine α δ) : Engine α δ :=
  match e.lifecycle with
  | .running worker => e.afterProgress (worker.take e.shared)
  | _ => e

/-- The worker delivers the event that it holds. -/
def workerDeliver (e : Engine α δ) : Engine α δ :=
  match e.lifecycle with
  | .running worker => e.afterProgress (worker.deliver e.shared)
  | _ => e

/-! ## Shutting down -/

/-- Closes the engine to producers and tells the worker not to go on. -/
def close (e : Engine α δ) : Engine α δ :=
  { e with
    started := true
    shared := { e.shared with accepting := false, running := false } }

/-- Discards what is left in the queue and says so. -/
def discardRest (e : Engine α δ) : Engine α δ :=
  let (count, shared) := e.shared.discardAll
  let e := { e with shared }
  if 0 < count then e.remark .caller (.discarded count) else e

/-- The last acts of a shutdown, with the target that is left. -/
def conclude (e : Engine α δ) (target : Option δ) : Engine α δ :=
  let e := { e.discardRest with lifecycle := .stopped target }
  e.remark .caller (.shutDown e.stats)

/-- Shuts the engine down: events that are queued are delivered, if the settings say
so, and discarded otherwise. -/
def shutdown (e : Engine α δ) : Engine α δ :=
  match e.lifecycle with
  | .stopped _ => e
  | .failed => e.close.conclude none
  | .idle target =>
    let e := e.close
    match if e.config.drainOnShutdown then e.shared.drain .caller [] target
        else (e.shared, .through [] target) with
    | (shared, .through _ target) => { e with shared }.conclude (some target)
    | (shared, .fatal _ target) => { e with shared, lost := some target }.conclude none
  | .running worker =>
    let e := e.close
    let p := worker.finish e.config.workerName e.config.drainOnShutdown e.shared
    let e := e.afterProgress p
    match p.worker with
    | .finished target => e.conclude (some target)
    | _ => (e.remark .caller .workerPanicked).conclude none

/-- Takes the target back. -/
def takeTarget (e : Engine α δ) : Option δ × Engine α δ :=
  match e.lifecycle with
  | .stopped target => (target, { e with lifecycle := .stopped none })
  | _ => (none, e)

/-- Destroys the payloads that are still in records. -/
def destroyRest (e : Engine α δ) : Engine α δ :=
  { e with shared := { e.shared with
      destroyed := e.shared.slots.payloads ++ e.shared.destroyed
      slots := .blank e.shared.capacity } }

/-- Gives the engine up: shuts it down and destroys what its records still hold. -/
def drop (e : Engine α δ) : Engine α δ :=
  e.shutdown.destroyRest

/-! ## Runs -/

/-- One action on an engine, by a caller or by its worker. -/
inductive Action (α : Type) where
  | start (spawnFault : Option IoFault)
  /-- A caller offers an event. -/
  | enqueue (spawnFault : Option IoFault) (a : α)
  /-- The worker takes and renders the oldest event. -/
  | take
  | deliver
  | shutdown
  | takeTarget
  deriving Repr

/-- The engine after one action. -/
def step (e : Engine α δ) : Action α → Engine α δ
  | .start spawnFault => (e.start spawnFault).2
  | .enqueue spawnFault a => (e.enqueue spawnFault a).2
  | .take => e.workerTake
  | .deliver => e.workerDeliver
  | .shutdown => e.shutdown
  | .takeTarget => e.takeTarget.2

/-- The engine after actions in order. -/
def run (e : Engine α δ) (actions : List (Action α)) : Engine α δ :=
  actions.foldl step e

end Engine

end EventLog
