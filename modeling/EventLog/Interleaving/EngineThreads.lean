import EventLog.Engine.Shared
import EventLog.Interleaving.PoolThreads
import EventLog.Interleaving.Calls

/-!
# Threads on an engine

Any number of producers offer events to one engine, its worker delivers them, and one
thread shuts it down, with the atomic steps of all of them interleaved in any way.  The
first producer that finds the engine not started starts the worker under a lock; the
thread that shuts down takes the same lock, closes the engine to producers, waits for
those that are inside, and has the worker finish.

Payloads and target are such that rendering and delivery return.

The state also keeps how often the pool's head changed, and each producer how often it had
changed when the producer last read it.
-/

namespace EventLog

namespace EngineThreads

/-! ## Threads -/

/-- Who takes a step. -/
inductive Thread where
  | producer (i : Nat)
  | worker
  /-- The thread that shuts the engine down. -/
  | closer
  deriving DecidableEq, Repr

/-- Where a producer stands in offering an event. -/
inductive ProducerPhase (α : Type) where
  | idle
  /-- It is about to look whether the engine is started. -/
  | checkStarted (a : α)
  /-- It waits for the lock in order to start the engine. -/
  | lock (a : α)
  /-- It has the lock and is about to start the worker, if that is due. -/
  | launch (a : α)
  /-- It tried to make the worker's thread, and is about to note the start. -/
  | markStarted (a : α) (spawned : Bool)
  /-- It is about to note the outcome. -/
  | conclude (a : α) (spawned : Bool)
  /-- It is about to give back the lock. -/
  | unlock (a : α)
  /-- It is about to enter. -/
  | enter (a : α)
  /-- It is inside and about to look whether events are accepted. -/
  | checkAccepting (a : α)
  /-- It is about to leave because none are. -/
  | leaveRefused (a : α)
  /-- It is outside and about to count the event as dropped. -/
  | countRefused (a : α)
  | acquire (a : α) (phase : Pool.AcquirePhase)
  /-- It is about to put the event into its record. -/
  | construct (a : α) (index : Nat)
  /-- It hands over the record with its event. -/
  | push (a : α) (phase : Queue.PushPhase)
  /-- It is about to count the event as accepted. -/
  | countEnqueued
  /-- It is about to count the event as dropped for want of a record. -/
  | countExhausted (a : α)
  | leave
  deriving Repr

/-- A producer. -/
structure Producer (α : Type) where
  phase : ProducerPhase α := .idle
  /-- The events that it is to offer yet. -/
  todo : List α
  /-- The number of changes of the pool's head when it last read the head. -/
  readAt : Nat := 0
  deriving Repr

/-- Where a consumer stands: the worker, or the thread that shuts down in its place. -/
inductive ConsumerPhase where
  | pop (phase : Queue.PopPhase)
  /-- It is about to deliver or to discard the event in its record. -/
  | handle (index : Nat)
  /-- It is about to count the event as delivered. -/
  | countWritten (index : Nat)
  | release (phase : Pool.ReleasePhase)
  /-- It is about to count the event as dropped. -/
  | countDropped
  /-- It found the queue empty. -/
  | exhausted
  deriving DecidableEq, Repr

/-- Where the worker stands. -/
inductive WorkerPhase where
  /-- Its thread was not made. -/
  | absent
  /-- It is about to look whether it is to go on. -/
  | checkRunning
  /-- It is on its way to the next event; `draining` says that it is not to go on. -/
  | consume (draining : Bool) (phase : ConsumerPhase)
  | finished
  deriving DecidableEq, Repr

/-- Where the thread that shuts down stands. -/
inductive CloserPhase where
  | idle
  | lock
  /-- It is about to close the engine to producers. -/
  | refuse
  /-- It is about to note a start, so that none is tried. -/
  | markStarted
  /-- It waits for the producers that are inside. -/
  | await
  /-- It is about to tell the worker not to go on. -/
  | stop
  /-- It is about to look who has the target. -/
  | claim
  | join
  /-- It delivers what is queued in place of a worker. -/
  | drain (phase : ConsumerPhase)
  /-- It discards what is queued. -/
  | discard (phase : ConsumerPhase)
  /-- It is about to give back the lock. -/
  | unlock
  | returned
  deriving DecidableEq, Repr

/-! ## State -/

/-- The stages in the life of the engine. -/
inductive Stage where
  | idle
  | running
  | failed
  | stopped
  deriving DecidableEq, Repr

/-- An engine and its threads. -/
structure State (α : Type) where
  /-- Pool, queue, payloads, counters and flags. -/
  shared : Shared α
  /-- Queued events are delivered at shutdown. -/
  drains : Bool
  /-- A start ran to its end. -/
  started : Bool := false
  /-- The number of producers that are inside. -/
  inside : Nat := 0
  /-- The thread that has the lock. -/
  owner : Option Thread := none
  stage : Stage := .idle
  producers : Array (Producer α)
  worker : WorkerPhase := .absent
  /-- The thread that shuts down. -/
  closer : CloserPhase := .idle
  /-- The events that were delivered, the last one first. -/
  delivered : List α := []
  /-- The number of calls of producers that returned. -/
  returned : Nat := 0
  /-- The number of changes of the pool's head. -/
  changes : Nat := 0

namespace State

variable {α : Type}

/-- A new engine, with the events that each producer is to offer. -/
def new (capacity : Nat) (drains : Bool) (todo : Array (List α)) : Except Panic (State α) :=
  match Shared.new capacity with
  | .error p => .error p
  | .ok shared => .ok { shared, drains, producers := todo.map fun events => { todo := events } }

/-- The state with another phase of a producer. -/
def setProducer (s : State α) (i : Nat) (p : Producer α) : State α :=
  { s with producers := s.producers.setIfInBounds i p }

/-- The state after a step on the pool. -/
def setPool (s : State α) (pool : Pool) : State α :=
  { s with
    shared := { s.shared with pool }
    changes := PoolThreads.changesAfter s.changes s.shared.pool pool }

/-- The state after a step on the queue. -/
def setQueue (s : State α) (queue : Queue) (links : Links) : State α :=
  { s with shared := { s.shared with queue, links } }

end State

/-! ## Steps -/

/-- What the surroundings decide at a step. -/
structure Chance where
  /-- A thread can be made. -/
  spawns : Bool := true
  /-- An exchange of the pool's head fails for no reason. -/
  weak : Bool := false
  deriving DecidableEq, Repr

variable {α : Type}

/-- A producer after a step of its acquisition. -/
def ProducerPhase.afterAcquire (a : α) : Pool.AcquirePhase → ProducerPhase α
  | .done (some index) => .construct a index
  | .done none => .countExhausted a
  | phase => .acquire a phase

/-- The same with what it notes when it reads the head. -/
def Producer.afterAcquire (p : Producer α) (a : α) (phase : Pool.AcquirePhase) (changes : Nat) :
    Producer α :=
  { p with
    phase := .afterAcquire a phase
    readAt := if PoolThreads.readsHead (.acquiring phase) then changes else p.readAt }

/-- A producer after a step of its push. -/
def ProducerPhase.afterPush (a : α) : Queue.PushPhase → ProducerPhase α
  | .done => .countEnqueued
  | phase => .push a phase

/-- A consumer after a step of its pop. -/
def ConsumerPhase.afterPop : Queue.PopPhase → ConsumerPhase
  | .done (some index) => .handle index
  | .done none => .exhausted
  | phase => .pop phase

/-- A consumer after a step of its release, with what it does after the last one. -/
def ConsumerPhase.afterRelease (following : ConsumerPhase) : Pool.ReleasePhase → ConsumerPhase
  | .done => following
  | phase => .release phase

/-- The worker after a step of a delivery. -/
def WorkerPhase.afterDeliver : Bool → ConsumerPhase → WorkerPhase
  | true, .exhausted => .finished
  | false, .exhausted => .checkRunning
  | false, .pop .start => .checkRunning
  | draining, phase => .consume draining phase

/-- The thread that shuts down after a step of a delivery. -/
def CloserPhase.afterDeliver : ConsumerPhase → CloserPhase
  | .exhausted => .discard (.pop .start)
  | phase => .drain phase

/-- The thread that shuts down after a step of a discard. -/
def CloserPhase.afterDiscard : ConsumerPhase → CloserPhase
  | .exhausted => .unlock
  | phase => .discard phase

/-- Puts an event into a record that its producer owns. -/
def place (s : Shared α) (index : Nat) (a : α) : Shared α :=
  match s.slots.place index a with
  | .error p => s.breakPromise p
  | .ok slots => { s with slots }

/-- A step of a producer; `none` if it has to wait or has nothing to do. -/
def stepProducer (s : State α) (i : Nat) (p : Producer α) (chance : Chance) :
    Option (State α) :=
  let goTo (s : State α) (phase : ProducerPhase α) : State α := s.setProducer i { p with phase }
  let comeBack (s : State α) : State α :=
    { s with returned := s.returned + 1 }.setProducer i { p with phase := .idle }
  match p.phase with
  | .idle =>
    match p.todo with
    | [] => none
    | a :: todo => some (s.setProducer i { p with phase := .checkStarted a, todo })
  | .checkStarted a => some (goTo s (if s.started then .enter a else .lock a))
  | .lock a =>
    if s.owner = none then some (goTo { s with owner := some (.producer i) } (.launch a))
    else none
  | .launch a =>
    match s.stage with
    | .idle =>
      some (goTo
        { s with stage := .failed, worker := if chance.spawns then .checkRunning else .absent }
        (.markStarted a chance.spawns))
    | _ => some (goTo s (.unlock a))
  | .markStarted a spawned => some (goTo { s with started := true } (.conclude a spawned))
  | .conclude a spawned =>
    if spawned then some (goTo { s with stage := .running } (.unlock a))
    else some (goTo { s with shared := { s.shared with accepting := false } } (.unlock a))
  | .unlock a => some (goTo { s with owner := none } (.enter a))
  | .enter a => some (goTo { s with inside := s.inside + 1 } (.checkAccepting a))
  | .checkAccepting a =>
    some (goTo s (if s.shared.accepting then .acquire a .readHead else .leaveRefused a))
  | .leaveRefused a => some (goTo { s with inside := s.inside - 1 } (.countRefused a))
  | .countRefused a => some (comeBack { s with shared := s.shared.refuse a })
  | .acquire a phase =>
    let (next, pool) := phase.step chance.weak s.shared.pool
    let s := s.setPool pool
    some (s.setProducer i (p.afterAcquire a next s.changes))
  | .construct a index =>
    some (goTo { s with shared := place s.shared index a } (.push a (.clear index)))
  | .push a phase =>
    let (next, queue, links) := phase.step s.shared.queue s.shared.links
    some (goTo (s.setQueue queue links) (.afterPush a next))
  | .countEnqueued => some (goTo { s with shared := s.shared.countEnqueued } .leave)
  | .countExhausted a => some (goTo { s with shared := s.shared.refuse a } .leave)
  | .leave => some (comeBack { s with inside := s.inside - 1 })

/-- A step of a consumer that delivers events. -/
def stepDeliver (s : State α) (chance : Chance) : ConsumerPhase → ConsumerPhase × State α
  | .pop phase =>
    let (next, queue, links) := phase.step s.shared.queue s.shared.links
    (.afterPop next, s.setQueue queue links)
  | .handle index =>
    (.countWritten index,
      { s with
        shared := s.shared.destroyIn index
        delivered := (s.shared.slots.payload? index).toList ++ s.delivered })
  | .countWritten index =>
    (.release (.readHead index), { s with shared := s.shared.countWritten })
  | .release phase =>
    let (next, pool) := phase.step chance.weak s.shared.pool
    (.afterRelease (.pop .start) next, s.setPool pool)
  | .countDropped => (.pop .start, s)
  | .exhausted => (.exhausted, s)

/-- A step of a consumer that discards events. -/
def stepDiscard (s : State α) (chance : Chance) : ConsumerPhase → ConsumerPhase × State α
  | .pop phase =>
    let (next, queue, links) := phase.step s.shared.queue s.shared.links
    (.afterPop next, s.setQueue queue links)
  | .handle index =>
    (.release (.readHead index), { s with shared := s.shared.destroyIn index })
  | .countWritten index => (.release (.readHead index), s)
  | .release phase =>
    let (next, pool) := phase.step chance.weak s.shared.pool
    (.afterRelease .countDropped next, s.setPool pool)
  | .countDropped => (.pop .start, { s with shared := s.shared.countDropped })
  | .exhausted => (.exhausted, s)

/-- A step of the worker; `none` if it does not exist or ended. -/
def stepWorker (s : State α) (chance : Chance) : Option (State α) :=
  match s.worker with
  | .absent => none
  | .checkRunning =>
    some { s with worker :=
      if s.shared.running then .consume false (.pop .start)
      else if s.drains then .consume true (.pop .start) else .finished }
  | .consume draining phase =>
    let (next, s) := stepDeliver s chance phase
    some { s with worker := .afterDeliver draining next }
  | .finished => none

/-- A step of the thread that shuts down; `none` if it has to wait or is through. -/
def stepCloser (s : State α) (chance : Chance) : Option (State α) :=
  match s.closer with
  | .idle => some { s with closer := .lock }
  | .lock =>
    if s.owner = none then some { s with owner := some .closer, closer := .refuse } else none
  | .refuse =>
    some { s with shared := { s.shared with accepting := false }, closer := .markStarted }
  | .markStarted => some { s with started := true, closer := .await }
  | .await => if s.inside = 0 then some { s with closer := .stop } else none
  | .stop => some { s with shared := { s.shared with running := false }, closer := .claim }
  | .claim =>
    some { s with
      stage := .stopped
      closer := match s.stage with
        | .idle => if s.drains then .drain (.pop .start) else .discard (.pop .start)
        | .running => .join
        | _ => .discard (.pop .start) }
  | .join => if s.worker = .finished then some { s with closer := .discard (.pop .start) } else none
  | .drain phase =>
    let (next, s) := stepDeliver s chance phase
    some { s with closer := .afterDeliver next }
  | .discard phase =>
    let (next, s) := stepDiscard s chance phase
    some { s with closer := .afterDiscard next }
  | .unlock => some { s with owner := none, closer := .returned }
  | .returned => none

/-- A step of a thread; `none` if it cannot take one. -/
def step? (s : State α) (thread : Thread) (chance : Chance) : Option (State α) :=
  match thread with
  | .producer i =>
    match s.producers[i]? with
    | none => none
    | some p => stepProducer s i p chance
  | .worker => stepWorker s chance
  | .closer => stepCloser s chance

/-! ## Holding deliveries back -/

/-- Every producer is in no call and has nothing left to offer. -/
def State.producersDone (s : State α) : Bool :=
  s.producers.all fun p => p.todo.isEmpty && match p.phase with
    | .idle => true
    | _ => false

/-- A step of the worker that does not deliver. -/
def stepHeldWorker (s : State α) : State α :=
  match s.worker with
  | .consume _ (.handle _) => s
  | _ => (stepWorker s {}).getD s

/-- Producers, and then the worker without its deliveries, in turn. -/
def stepHeld (i : Nat) (s : State α) : State α :=
  if i < s.producers.size then (step? s (.producer i) {}).getD s else stepHeldWorker s

/-- The worker and the thread that shuts down, in turn. -/
def stepClosing (i : Nat) (s : State α) : State α :=
  (step? s (if i = 0 then .worker else .closer) {}).getD s

/-- All producers offer what they have while deliveries are held back. -/
def runHeld (s : State α) : State α :=
  let calls := (s.producers.toList.map fun p => p.todo.length).foldl (· + ·) 0
  Turns.run stepHeld (s.producers.size + 1) State.producersDone
    (60 * (calls + 1) * (s.producers.size + 1)) s

/-- Shuts the engine down. -/
def runClosing (s : State α) : State α :=
  Turns.run stepClosing 2 (fun s => s.closer = .returned) (60 * (s.shared.capacity + 2)) s

end EngineThreads

end EventLog
