import EventLog.Diagnostic
import EventLog.Event.Basic
import EventLog.Transport.Pool
import EventLog.Transport.Queue
import EventLog.Transport.Slots

/-!
# Shared state of an engine

What the producers and the worker of an engine share: a pool of records, the payloads
that the records hold, and the queue of the records that wait for the worker.  An
event is offered by a producer and later either delivered or discarded, and its record
becomes free again.

The operations on records come with promises: a payload is put into an empty record
only, and only an empty record of the pool is given back.  A promise that is broken is
kept in the state.

The values that an engine carries and the target that it delivers to are the user's: a
payload may fail to render and a target may fail to take one, and neither failure can
be caught where it happens.
-/

namespace EventLog

/-! ## Payloads and targets -/

/-- A value that can travel through an engine. -/
class Payload (α : Type) where
  tag : α → Tag
  header : α → Header
  /-- Its line; `none` if rendering does not return. -/
  render : α → Option Text

/-- The last station of a payload. -/
class Target (α δ : Type) where
  /-- Takes a payload and its line; `none` if it does not return. -/
  deliver : α → Text → δ → Option (δ × List Diagnostic)

instance : Payload Event where
  tag := Event.tag
  header := Event.header
  render e := some e.line

/-! ## Shared state -/

/-- Which of its two sides a remark of the log comes from. -/
inductive Side where
  | caller
  | worker
  deriving DecidableEq, Repr

/-- What producers and worker share. -/
structure Shared (α : Type) where
  pool : Pool
  /-- The queue of records that hold an event; the stub comes after all records. -/
  queue : Queue
  links : Links
  slots : Slots α
  stats : Stats := {}
  /-- Producers may still add events. -/
  accepting : Bool := true
  /-- The worker is to go on. -/
  running : Bool := true
  /-- The payloads that were destroyed, the last one first. -/
  destroyed : List α := []
  /-- The remarks so far, the last one first. -/
  remarks : List (Side × Diagnostic) := []
  /-- The promises that were broken, the last one first. -/
  broken : List Panic := []

namespace Shared

variable {α : Type}

/-! ### Making and observing -/

/-- The number of the pool of an engine. -/
def poolNumber : Nat := 0

/-- The shared state of an engine with a number of records. -/
def new (capacity : Nat) : Except Panic (Shared α) :=
  match Pool.new poolNumber capacity with
  | .error p => .error p
  | .ok pool =>
    .ok {
      pool
      queue := .new capacity
      links := .blank (capacity + 1)
      slots := .blank capacity }

/-- The number of records. -/
def capacity (s : Shared α) : Nat := s.pool.capacity

/-- The number of free records. -/
def available (s : Shared α) : Nat := s.pool.available

/-- The remarks of one side, in order. -/
def remarksOf (s : Shared α) (side : Side) : List Diagnostic :=
  (s.remarks.filter fun r => r.1 = side).reverse.map Prod.snd

/-! ### Small changes -/

/-- Adds a remark. -/
def remark (s : Shared α) (side : Side) (d : Diagnostic) : Shared α :=
  { s with remarks := (side, d) :: s.remarks }

/-- Adds remarks in order. -/
def remarkAll (s : Shared α) (side : Side) (ds : List Diagnostic) : Shared α :=
  ds.foldl (fun s d => s.remark side d) s

/-- Keeps a broken promise. -/
def breakPromise (s : Shared α) (p : Panic) : Shared α :=
  { s with broken := p :: s.broken }

/-- Counts an event as dropped. -/
def countDropped (s : Shared α) : Shared α :=
  { s with stats := { s.stats with dropped := s.stats.dropped + 1 } }

/-- Counts an event as accepted. -/
def countEnqueued (s : Shared α) : Shared α :=
  { s with stats := { s.stats with enqueued := s.stats.enqueued + 1 } }

/-- Counts an event as delivered. -/
def countWritten (s : Shared α) : Shared α :=
  { s with stats := { s.stats with written := s.stats.written + 1 } }

/-- Destroys a payload that is in no record. -/
def destroy (s : Shared α) (a : α) : Shared α :=
  { s with destroyed := a :: s.destroyed }

/-- Destroys the payload in a record, if there is one. -/
def destroyIn (s : Shared α) (index : Nat) : Shared α :=
  match s.slots.payload? index with
  | none => s
  | some a => { s.destroy a with slots := s.slots.clear index }

/-- Gives an empty record back to the pool. -/
def release (s : Shared α) (index : Nat) : Shared α :=
  if s.slots.isOccupied index then s.breakPromise .releasedOccupied
  else
    match s.pool.release (s.pool.record index) with
    | .error p => s.breakPromise p
    | .ok pool => { s with pool }

/-! ### The way of an event -/

/-- Discards an event that is not accepted. -/
def refuse (s : Shared α) (a : α) : Shared α :=
  (s.destroy a).countDropped

/-- Puts an event into a record and the record into the queue. -/
def append (s : Shared α) (index : Nat) (a : α) : Shared α :=
  match s.slots.place index a with
  | .error p => s.breakPromise p
  | .ok slots =>
    let (queue, links) := s.queue.push s.links index
    { s with slots, queue, links }

/-- Offers an event: it is accepted if events are accepted at all and a record is
free, and discarded otherwise. -/
def offer (s : Shared α) (a : α) : Shared α :=
  if !s.accepting then s.refuse a
  else
    match s.pool.acquire with
    | .error p => s.breakPromise p
    | .ok (none, pool) => { s with pool }.refuse a
    | .ok (some index, pool) => ({ s with pool }.append index a).countEnqueued

/-- Takes the record of the oldest event out of the queue. -/
def takeOldest (s : Shared α) : Option Nat × Shared α :=
  match s.queue.pop s.links with
  | (.node index, queue, links) => (some index, { s with queue, links })
  | (_, queue, links) => (none, { s with queue, links })

/-- Destroys a delivered event and frees its record. -/
def retire (s : Shared α) (index : Nat) : Shared α :=
  (s.destroyIn index).countWritten.release index

/-- Destroys an event that is not delivered and frees its record. -/
def discard (s : Shared α) (index : Nat) : Shared α :=
  ((s.destroyIn index).release index).countDropped

/-- Discards the events in the queue, at most a number of them. -/
def discardUpTo : Nat → Shared α → Nat × Shared α
  | 0, s => (0, s)
  | fuel + 1, s =>
    match s.takeOldest with
    | (none, s) => (0, s)
    | (some index, s) =>
      let (count, s) := discardUpTo fuel (s.discard index)
      (count + 1, s)

/-- Discards the events in the queue.  There are at most as many as records. -/
def discardAll (s : Shared α) : Nat × Shared α :=
  s.discardUpTo s.capacity

end Shared

end EventLog
