/-!
# Linked queues

A queue is threaded through one link for each node, and nodes can be shared between
queues.  Each queue has a stub node of its own that is never handed out; it stands
where the queue would otherwise be without any node.  Producers append behind the
tail, the consumer takes from the head.

A node is appended in three steps: its link is cleared, the tail is exchanged for it,
and the former tail is linked to it.  A consumer that finds no link where the tail
shows that there must be one has to wait for it.

Main results:

- `Links.get_set`: what a link leads to after another one was set.
-/

namespace EventLog

/-- The place of a node. -/
abbrev Address := Nat

/-! ## Links -/

/-- The link of each node. -/
structure Links where
  /-- The successor of each node, by address. -/
  next : Array (Option Address)
  deriving DecidableEq, Repr, Inhabited

namespace Links

/-- Links of nodes that stand alone. -/
def blank (nodes : Nat) : Links := ⟨Array.replicate nodes none⟩

/-- The node that a link leads to. -/
def get (l : Links) (node : Address) : Option Address := l.next[node]?.join

/-- The links with one of them changed. -/
def set (l : Links) (node : Address) (target : Option Address) : Links :=
  ⟨l.next.setIfInBounds node target⟩

/-- The number of nodes. -/
def size (l : Links) : Nat := l.next.size

@[simp] theorem size_set (l : Links) (node : Address) (target : Option Address) :
    (l.set node target).size = l.size := by
  simp [set, size]

/-- What a link leads to after one was set. -/
theorem get_set (l : Links) (node other : Address) (target : Option Address) :
    (l.set node target).get other =
      if other = node ∧ node < l.size then target else l.get other := by
  unfold set get size
  rw [Array.getElem?_setIfInBounds]
  by_cases hnode : node = other
  · subst hnode
    by_cases hsize : node < l.next.size
    · simp [hsize]
    · simp [hsize]
  · rw [if_neg hnode, if_neg (fun h => hnode h.1.symm)]

end Links

/-! ## Queues -/

/-- A queue over linked nodes. -/
structure Queue where
  /-- The node that stands in where there is no other. -/
  stub : Address
  /-- The node that the consumer looks at next. -/
  head : Address
  /-- The node that was appended last. -/
  tail : Address
  deriving DecidableEq, Repr, Inhabited

/-- What a consumer gets. -/
inductive Popped where
  | empty
  | node (address : Address)
  /-- A node is there, but the link to it is not yet. -/
  | unlinked
  deriving DecidableEq, Repr

namespace Queue

/-- An empty queue. -/
def new (stub : Address) : Queue := ⟨stub, stub, stub⟩

/-- Appends a node: clears its link, makes it the tail and links the former tail to
it. -/
def push (q : Queue) (l : Links) (node : Address) : Queue × Links :=
  ({ q with tail := node }, (l.set node none).set q.tail (some node))

/-- Hands out the node at the head.  The last node is handed out behind the stub,
which is appended first. -/
def detachHead (q : Queue) (l : Links) : Popped × Queue × Links :=
  match l.get q.head with
  | some next => (.node q.head, { q with head := next }, l)
  | none =>
    if q.tail ≠ q.head then (.unlinked, q, l)
    else
      let (q', l') := q.push l q.stub
      match l'.get q.head with
      | some next => (.node q.head, { q' with head := next }, l')
      | none => (.unlinked, q', l')

/-- Takes the oldest node. -/
def pop (q : Queue) (l : Links) : Popped × Queue × Links :=
  if q.head = q.stub then
    match l.get q.head with
    | some first => detachHead { q with head := first } l
    | none => if q.tail = q.stub then (.empty, q, l) else (.unlinked, q, l)
  else detachHead q l

/-- There is no node. -/
def isEmpty (q : Queue) (l : Links) : Bool :=
  q.head = q.stub ∧ l.get q.head = none ∧ q.tail = q.head

/-- The shown form of a queue. -/
def describe : String := "MpscQueue \x7b .. \x7d"

end Queue

end EventLog
