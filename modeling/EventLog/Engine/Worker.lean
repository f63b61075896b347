import EventLog.Engine.Shared

/-!
# The worker of an engine

The worker takes the oldest event from the queue, renders it into its line, hands it to
the target, destroys it, counts it and frees its record.  An event that does not
survive rendering or delivery takes the worker with it; its record stays as it is.

The way of an event through the worker has two halves, `prepare` up to the rendered
line and `complete` from the delivery on, so that a worker that holds an event in
between is a state of its own.
-/

namespace EventLog

/-- Where a worker stands. -/
inductive Worker (δ : Type) where
  /-- It looks for the next event. -/
  | polling (line : Text) (target : δ)
  /-- It holds the record of an event and its line. -/
  | holding (index : Nat) (line : Text) (target : δ)
  /-- It ended in order and gives the target back. -/
  | finished (target : δ)
  /-- It did not survive the event in a record. -/
  | died (index : Nat)
  deriving Repr

/-- What became of an event on its way. -/
inductive Passage (δ : Type) where
  /-- It was delivered. -/
  | through (line : Text) (target : δ)
  /-- Nobody survived it; the target is what it was before. -/
  | fatal (index : Nat) (target : δ)
  deriving Repr

namespace Shared

variable {α δ : Type} [Payload α] [Target α δ]

/-! ## One event -/

/-- The line, emptied for the next event. -/
def emptied (_ : Text) : Text := []

/-- Renders the event in a record behind the emptied line; `none` if rendering does not
return. -/
def prepare (s : Shared α) (index : Nat) (line : Text) : Option Text :=
  match s.slots.payload? index with
  | none => some (emptied line)
  | some a => (Payload.render a).map fun rendered => emptied line ++ rendered

/-- Hands the event in a record to the target, destroys it, counts it and frees the
record. -/
def complete (s : Shared α) (side : Side) (index : Nat) (line : Text) (target : δ) :
    Shared α × Passage δ :=
  match s.slots.payload? index with
  | none => (s.retire index, .through line target)
  | some a =>
    match Target.deliver a line target with
    | none => (s, .fatal index target)
    | some (target, remarks) =>
      ((s.remarkAll side remarks).retire index, .through line target)

/-- The whole way of the event in a record. -/
def deliverRecord (s : Shared α) (side : Side) (index : Nat) (line : Text) (target : δ) :
    Shared α × Passage δ :=
  match s.prepare index line with
  | none => (s, .fatal index target)
  | some line => s.complete side index line target

/-! ## All events -/

/-- Delivers the events in the queue, at most a number of them. -/
def drainUpTo (side : Side) : Nat → Shared α → Text → δ → Shared α × Passage δ
  | 0, s, line, target => (s, .through line target)
  | fuel + 1, s, line, target =>
    match s.takeOldest with
    | (none, s) => (s, .through line target)
    | (some index, s) =>
      match s.deliverRecord side index line target with
      | (s, .through line target) => drainUpTo side fuel s line target
      | (s, .fatal index target) => (s, .fatal index target)

/-- Delivers the events in the queue.  There are at most as many as records. -/
def drain (s : Shared α) (side : Side) (line : Text) (target : δ) : Shared α × Passage δ :=
  drainUpTo side s.capacity s line target

end Shared

namespace Worker

variable {α δ : Type} [Payload α] [Target α δ]

/-! ## Steps of a worker -/

/-- A worker that was just started. -/
def start (target : δ) : Worker δ := polling [] target

/-- What a step of a worker leads to: the shared state, the worker, and the target if
the worker lost it. -/
structure Progress (α δ : Type) where
  shared : Shared α
  worker : Worker δ
  /-- The target that went down with the worker. -/
  lost : Option δ := none

/-- The worker after the passage of an event. -/
def afterPassage (s : Shared α) : Passage δ → Progress α δ
  | .through line target => ⟨s, polling line target, none⟩
  | .fatal index target => ⟨s, died index, some target⟩

/-- A worker that looks for an event takes the oldest and renders it. -/
def take (s : Shared α) : Worker δ → Progress α δ
  | polling line target =>
    match s.takeOldest with
    | (none, s) => ⟨s, polling line target, none⟩
    | (some index, s) =>
      match s.prepare index line with
      | none => ⟨s, died index, some target⟩
      | some line => ⟨s, holding index line target, none⟩
  | w => ⟨s, w, none⟩

/-- A worker that holds an event delivers it. -/
def deliver (s : Shared α) : Worker δ → Progress α δ
  | holding index line target =>
    let (s, passage) := s.complete .worker index line target
    afterPassage s passage
  | w => ⟨s, w, none⟩

/-- What is left to do for a worker that looks for an event and is not to go on: it
delivers what is queued, if it should, and ends. -/
def windDown (name : String) (drain : Bool) (s : Shared α) : Worker δ → Progress α δ
  | polling line target =>
    match if drain then s.drain .worker line target else (s, .through line target) with
    | (s, .through _ target) => ⟨s.remark .worker (.workerStopped name), finished target, none⟩
    | (s, .fatal index target) => ⟨s, died index, some target⟩
  | w => ⟨s, w, none⟩

/-- Runs a worker that is not to go on to its end: the event that it holds, then the
rest. -/
def finish (name : String) (drain : Bool) (s : Shared α) (w : Worker δ) : Progress α δ :=
  let p := deliver s w
  match p.lost with
  | some _ => p
  | none => windDown name drain p.shared p.worker

/-- The target that a worker has. -/
def target? : Worker δ → Option δ
  | polling _ target => some target
  | holding _ _ target => some target
  | finished target => some target
  | died _ => none

end Worker

end EventLog
