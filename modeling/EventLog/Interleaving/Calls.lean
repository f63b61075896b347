import EventLog.Transport.Pool
import EventLog.Transport.Queue

/-!
# Calls in atomic steps

The calls on a pool and on a queue, cut into steps that each touch one word that is
shared.  Between the first and the last step of a call a thread stands in a phase of the
call.

Acquiring and releasing a record touch the head, a link or the counter.  The head is
changed by comparing it with what was read before and exchanging it only if it is still
that; such an exchange may also fail for no reason.

Pushing a node and popping one touch a link or the tail; the head belongs to the
consumer alone.  A producer breaks the chain between the exchange of the tail and the
publication of the node; a consumer that arrives there waits.

Of all the orders of steps, one schedule is fixed here: that in which threads take their
steps in turn.
-/

namespace EventLog

/-! ## Pool calls -/

namespace Pool

/-! ### Acquiring -/

/-- Where a thread stands in acquiring a record. -/
inductive AcquirePhase where
  | readHead
  /-- It read a head that links to a record, and is about to read that record's link. -/
  | readLink (seen : PoolHead)
  /-- It is about to exchange the head for one that links to `next`. -/
  | exchange (seen : PoolHead) (next : UInt32)
  /-- The record is its own, but is still counted as free. -/
  | count (index : Nat)
  /-- It is through, with a record or without. -/
  | done (index : Option Nat)
  deriving DecidableEq, Repr

namespace AcquirePhase

/-- Where a thread stands after it read a head. -/
def ofHead (seen : PoolHead) : AcquirePhase :=
  if seen.link = 0 then done none else readLink seen

/-- The index of the record that a head links to. -/
def top (seen : PoolHead) : Nat := seen.link.toNat - 1

/-- One step.  `weak` makes an exchange fail for no reason. -/
def step (weak : Bool) (p : Pool) : AcquirePhase → AcquirePhase × Pool
  | readHead => (ofHead p.head, p)
  | readLink seen => (exchange seen (p.links[top seen]?.getD 0), p)
  | exchange seen next =>
    if weak = false ∧ p.head = seen then (count (top seen), { p with head := seen.moveTo next })
    else (ofHead p.head, p)
  | count index => (done (some index), { p with balance := p.balance - 1 })
  | done index => (done index, p)

end AcquirePhase

/-! ### Releasing -/

/-- Where a thread stands in releasing a record. -/
inductive ReleasePhase where
  | readHead (index : Nat)
  /-- It is about to link the record to what the head it read links to. -/
  | writeLink (index : Nat) (seen : PoolHead)
  /-- It is about to exchange the head for one that links to the record. -/
  | exchange (index : Nat) (seen : PoolHead)
  /-- The record is free, but is not yet counted as free. -/
  | count
  | done
  deriving DecidableEq, Repr

namespace ReleasePhase

/-- One step.  `weak` makes an exchange fail for no reason. -/
def step (weak : Bool) (p : Pool) : ReleasePhase → ReleasePhase × Pool
  | readHead index => (writeLink index p.head, p)
  | writeLink index seen =>
    (exchange index seen, { p with links := p.links.setIfInBounds index seen.link })
  | exchange index seen =>
    if weak = false ∧ p.head = seen then (count, { p with head := seen.moveTo (linkTo index) })
    else (writeLink index p.head, p)
  | count => (done, { p with balance := p.balance + 1 })
  | done => (done, p)

end ReleasePhase

end Pool

/-! ## Queue calls -/

namespace Queue

/-! ### Pushing -/

/-- Where a producer stands in pushing a node. -/
inductive PushPhase where
  /-- It is about to clear the link of the node. -/
  | clear (node : Address)
  /-- It is about to exchange the tail for the node. -/
  | exchange (node : Address)
  /-- It is about to link the former tail to the node. -/
  | publish (node former : Address)
  | done
  deriving DecidableEq, Repr

/-- One step of a producer. -/
def PushPhase.step (q : Queue) (l : Links) : PushPhase → PushPhase × Queue × Links
  | clear node => (exchange node, q, l.set node none)
  | exchange node => (publish node q.tail, { q with tail := node }, l)
  | publish node former => (done, q, l.set former (some node))
  | done => (done, q, l)

/-! ### Popping -/

/-- Where the consumer stands in popping a node. -/
inductive PopPhase where
  /-- It is about to read the link of the head. -/
  | start
  /-- The stub is the head and links to nothing; it is about to read the tail. -/
  | readTailAtStub
  /-- It waits for the link of the stub. -/
  | awaitStub
  /-- The head is not the stub; it is about to read the head's link. -/
  | readHead
  /-- The head links to nothing; it is about to read the tail. -/
  | readTail
  /-- The head is the last node; it is about to clear the link of the stub. -/
  | clearStub
  /-- It is about to exchange the tail for the stub. -/
  | exchangeStub
  /-- It is about to link the former tail to the stub. -/
  | publishStub (former : Address)
  /-- It waits for the link of the head. -/
  | awaitHead
  /-- It is through, with a node or without. -/
  | done (node : Option Address)
  deriving DecidableEq, Repr

namespace PopPhase

/-- The head moves on to the node that it links to, and is handed out. -/
def handOut (q : Queue) (l : Links) (next : Address) : PopPhase × Queue × Links :=
  (done (some q.head), { q with head := next }, l)

/-- One step of the consumer. -/
def step (q : Queue) (l : Links) : PopPhase → PopPhase × Queue × Links
  | start =>
    match l.get q.head with
    | none => (if q.head = q.stub then readTailAtStub else readTail, q, l)
    | some next =>
      if q.head = q.stub then (readHead, { q with head := next }, l) else handOut q l next
  | readTailAtStub => (if q.tail = q.stub then done none else awaitStub, q, l)
  | awaitStub =>
    match l.get q.stub with
    | none => (awaitStub, q, l)
    | some next => (readHead, { q with head := next }, l)
  | readHead =>
    match l.get q.head with
    | none => (readTail, q, l)
    | some next => handOut q l next
  | readTail => (if q.tail = q.head then clearStub else awaitHead, q, l)
  | clearStub => (exchangeStub, q, l.set q.stub none)
  | exchangeStub => (publishStub q.tail, { q with tail := q.stub }, l)
  | publishStub former => (awaitHead, q, l.set former (some q.stub))
  | awaitHead =>
    match l.get q.head with
    | none => (awaitHead, q, l)
    | some next => handOut q l next
  | done node => (done node, q, l)

end PopPhase

end Queue

/-! ## Taking turns -/

namespace Turns

variable {σ : Type}

/-- One step of each thread in turn. -/
def round (step : Nat → σ → σ) (threads : Nat) (s : σ) : σ :=
  (List.range threads).foldl (fun s i => step i s) s

/-- Rounds until all is done, at most `rounds` of them. -/
def run (step : Nat → σ → σ) (threads : Nat) (isDone : σ → Bool) : Nat → σ → σ
  | 0, s => s
  | rounds + 1, s =>
    if isDone s then s else run step threads isDone rounds (round step threads s)

end Turns

end EventLog
