import EventLog.Interleaving.Calls

/-!
# Threads on a queue

Any number of producers push nodes to one queue from which one consumer pops, their
atomic steps interleaved in any way.  A node is pushed only while it is in no queue, and
may be pushed again after it was popped.
-/

namespace EventLog

namespace QueueThreads

/-! ## State -/

/-- A queue, its producers and its consumer. -/
structure State where
  links : Links
  queue : Queue
  /-- What each producer is about: the push that it is in, if it is in one. -/
  producers : Array (Option Queue.PushPhase)
  /-- The pop that the consumer is in, if it is in one. -/
  consumer : Option Queue.PopPhase := none
  /-- The nodes that were given to the queue and not popped yet. -/
  inside : List Address := []
  /-- The nodes in the order of the producers' exchanges, the last one first. -/
  exchanged : List Address := []
  /-- The nodes that were popped, the last one first. -/
  popped : List Address := []
  /-- What the last pop came back with. -/
  answer : Option (Option Address) := none
  deriving DecidableEq, Repr

/-- An empty queue over a number of nodes, with the stub after them. -/
def start (nodes producers : Nat) : State :=
  { links := .blank (nodes + 1), queue := .new nodes, producers := Array.replicate producers none }

/-! ## Steps -/

/-- What happens next. -/
inductive Move where
  | push (producer : Nat) (node : Address)
  /-- A producer takes the next atomic step of its push. -/
  | produce (producer : Nat)
  | pop
  /-- The consumer takes the next atomic step of its pop. -/
  | consume
  deriving DecidableEq, Repr

/-- The push that a producer is in after a step. -/
def openPush : Queue.PushPhase → Option Queue.PushPhase
  | .done => none
  | phase => some phase

/-- The state after a step of a producer. -/
def State.produce (s : State) (i : Nat) (phase : Queue.PushPhase) : State :=
  let (next, queue, links) := phase.step s.queue s.links
  { s with
    queue
    links
    producers := s.producers.setIfInBounds i (openPush next)
    exchanged := match phase with
      | .exchange node => node :: s.exchanged
      | _ => s.exchanged }

/-- The state after a step of the consumer. -/
def State.consume (s : State) (phase : Queue.PopPhase) : State :=
  let (next, queue, links) := phase.step s.queue s.links
  match next with
  | .done none => { s with queue, links, consumer := none, answer := some none }
  | .done (some node) =>
    { s with
      queue
      links
      consumer := none
      answer := some (some node)
      inside := s.inside.erase node
      popped := node :: s.popped }
  | next => { s with queue, links, consumer := some next }

/-- The state after a move; `none` if it cannot be made. -/
def step? (s : State) : Move → Option State
  | .push i node =>
    if s.producers[i]? = some none ∧ node < s.queue.stub ∧ node ∉ s.inside then
      some { s with
        producers := s.producers.setIfInBounds i (some (.clear node))
        inside := node :: s.inside }
    else none
  | .produce i =>
    match s.producers[i]? with
    | some (some phase) => some (s.produce i phase)
    | _ => none
  | .pop =>
    match s.consumer with
    | none => some { s with consumer := some .start }
    | some _ => none
  | .consume =>
    match s.consumer with
    | none => none
    | some phase => some (s.consume phase)

/-! ## Feeding -/

/-- Producers that push nodes of their own, one after the other, and a consumer that
pops. -/
structure Feed where
  state : State
  /-- What each producer is to push yet. -/
  left : Array (List Address)

namespace Feed

/-- What a thread does next; the thread after the producers is the consumer. -/
def moveOf (f : Feed) (i : Nat) : Option Move :=
  if i < f.left.size then
    match f.state.producers[i]?.join, f.left[i]?.getD [] with
    | some _, _ => some (.produce i)
    | none, node :: _ => some (.push i node)
    | none, [] => none
  else
    match f.state.consumer with
    | some _ => some .consume
    | none => some .pop

/-- One step of a thread. -/
def step (i : Nat) (f : Feed) : Feed :=
  match f.moveOf i with
  | none => f
  | some m =>
    match step? f.state m with
    | none => f
    | some state =>
      match m with
      | .push i _ => { state, left := f.left.modify i List.tail }
      | _ => { state, left := f.left }

/-- The nodes of a producer. -/
def nodesOf (perThread thread : Nat) : List Address :=
  (List.range perThread).map fun k => thread * perThread + k

/-- All was popped. -/
def isDone (total : Nat) (f : Feed) : Bool :=
  f.state.popped.length = total && f.state.consumer = none

/-- Every producer pushes its nodes, in turns with the consumer. -/
def run (threads perThread : Nat) : State :=
  let total := threads * perThread
  (Turns.run step (threads + 1) (isDone total) (20 * (total + 1))
    ⟨start total threads, Array.ofFn fun i : Fin threads => nodesOf perThread i⟩).state

/-- The nodes of a producer in the order in which they were popped, by their place
among its nodes. -/
def arrivals (perThread : Nat) (s : State) (thread : Nat) : List Nat :=
  (s.popped.reverse.filter fun node => node / perThread = thread).map (· % perThread)

end Feed

end QueueThreads

end EventLog
