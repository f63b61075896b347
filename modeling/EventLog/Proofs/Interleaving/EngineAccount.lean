import Mathlib.Algebra.BigOperators.Ring.List
import Mathlib.Algebra.Ring.Nat
import EventLog.Proofs.Interleaving.EngineEvents

/-!
# Counters of an engine under threads

Each counter is behind what it counts by at most one event for each thread: a producer counts
after it exchanged the tail, the consumer after it delivered or after it gave back the record.
Together with the records and the events this is all that the engine's books say, and every step
of a producer and of the consumer keeps them.

Main results:

- `EngineThreads.Books`: records, events and counters, for a consumer in any phase.
- `EngineThreads.books_stepProducer`: a step of a producer.
- `EngineThreads.books_stepDeliver` and `EngineThreads.books_stepDiscard`: a step of the consumer.
-/

namespace EventLog

namespace EngineThreads

open PoolThreads (exists_perm_of_getElem? changesAfter changesAfter_of_eq changesAfter_moveTo)
open QueueThreads (waiting? exchanged? openPush)
open Queue (content)

variable {α : Type}

/-! ## What threads have not counted yet -/

/-- The sum over all producers. -/
def State.sum (s : State α) (f : Producer α → Nat) : Nat := (s.producers.toList.map f).sum

/-- The event came into the queue and is still to be counted as accepted. -/
def ProducerPhase.unnoted : ProducerPhase α → Nat
  | .push _ phase => if waiting? phase = none then 1 else 0
  | .countEnqueued => 1
  | _ => 0

/-- The event was counted, and the producer is still inside. -/
def ProducerPhase.leaving : ProducerPhase α → Nat
  | .leave => 1
  | _ => 0

/-- The producer is in a call. -/
def ProducerPhase.busy : ProducerPhase α → Nat
  | .idle => 0
  | _ => 1

/-- The calls of a producer that have not returned. -/
def Producer.owed (p : Producer α) : Nat := p.phase.busy + p.todo.length

/-- The producer is in a call and has neither a record nor anything to count. -/
def ProducerPhase.isOffering : ProducerPhase α → Bool
  | .checkStarted _ => true
  | .lock _ => true
  | .launch _ => true
  | .markStarted .. => true
  | .conclude .. => true
  | .unlock _ => true
  | .enter _ => true
  | .checkAccepting _ => true
  | .leaveRefused _ => true
  | .countRefused _ => true
  | .acquire _ .readHead => true
  | _ => false

/-- The changes of the pool's head that a call can make yet, with that of giving back its record. -/
def ProducerPhase.due : ProducerPhase α → Nat
  | .acquire _ (.count _) => 1
  | .acquire _ (.done _) => 1
  | .acquire .. => 2
  | .construct .. => 1
  | .push _ phase => (waiting? phase).toList.length
  | phase => if phase.isOffering then 2 else 0

/-- The same for all calls of a producer. -/
def Producer.due (p : Producer α) : Nat := p.phase.due + 2 * p.todo.length

/-- The consumer is still to give back a record whose event it handled. -/
def ConsumerPhase.due : ConsumerPhase → Nat
  | .countWritten _ => 1
  | .release (.readHead _) => 1
  | .release (.writeLink ..) => 1
  | .release (.exchange ..) => 1
  | _ => 0

/-- The consumer delivered an event and is still to count it. -/
def ConsumerPhase.unwritten (discards : Bool) : ConsumerPhase → Nat
  | .countWritten _ => if discards then 0 else 1
  | _ => 0

/-- The consumer discarded an event and is still to count it. -/
def ConsumerPhase.undropped (discards : Bool) : ConsumerPhase → Nat
  | .countWritten _ => if discards then 1 else 0
  | .release _ => if discards then 1 else 0
  | .countDropped => if discards then 1 else 0
  | _ => 0

/-- The counters, when `order` came into the queue and `lapsed` was discarded of it; `total` is the
number of calls that the producers are to make. -/
structure Counts (s : State α) (c : ConsumerPhase) (discards : Bool) (order : List (Nat × α))
    (lapsed : List α) (total : Nat) : Prop where
  written_eq : s.delivered.length = s.shared.stats.written + c.unwritten discards
  enqueued_eq : order.length = s.shared.stats.enqueued + s.sum fun p => p.phase.unnoted
  dropped_eq : s.shared.stats.enqueued + s.shared.stats.dropped + c.undropped discards =
    s.returned + (s.sum fun p => p.phase.leaving) + lapsed.length
  total_eq : s.returned + s.sum Producer.owed = total

variable {s t : State α} {c c' : ConsumerPhase} {discards : Bool} {first : UInt32}
  {capacity i n total : Nat} {a : α} {p p' : Producer α} {order order' : List (Nat × α)}
  {lapsed lapsed' : List α} {todo : Array (List α)}

theorem sum_setProducer (hi : s.producers[i]? = some p)
    (hproducers : t.producers = s.producers.setIfInBounds i p') (f : Producer α → Nat) :
    t.sum f + f p = s.sum f + f p' := by
  rcases exists_perm_of_getElem? hi with ⟨others, hperm, hset⟩
  have hs := (hperm.map f).sum_eq
  have ht := ((hset p').map f).sum_eq
  rw [List.map_cons, List.sum_cons] at hs ht
  rw [State.sum, State.sum, hproducers, hs, ht]
  omega

/-- A step of a producer moves events from one side of each equation to the other. -/
theorem Counts.producer (h : Counts s c discards order lapsed total)
    (hi : s.producers[i]? = some p) (hproducers : t.producers = s.producers.setIfInBounds i p')
    (hdelivered : t.delivered = s.delivered)
    (hwritten : t.shared.stats.written = s.shared.stats.written)
    (henqueued : order'.length + s.shared.stats.enqueued + p.phase.unnoted =
      order.length + t.shared.stats.enqueued + p'.phase.unnoted)
    (hdropped : t.shared.stats.enqueued + t.shared.stats.dropped + s.returned + p.phase.leaving =
      s.shared.stats.enqueued + s.shared.stats.dropped + t.returned + p'.phase.leaving)
    (htotal : t.returned + p'.owed = s.returned + p.owed) :
    Counts t c discards order' lapsed total where
  written_eq := by rw [hdelivered, hwritten, h.written_eq]
  enqueued_eq := by
    have hsum := sum_setProducer hi hproducers fun p => p.phase.unnoted
    have hs := h.enqueued_eq
    omega
  dropped_eq := by
    have hsum := sum_setProducer hi hproducers fun p => p.phase.leaving
    have hs := h.dropped_eq
    omega
  total_eq := by
    have hsum := sum_setProducer hi hproducers Producer.owed
    have hs := h.total_eq
    omega

/-- A step of the consumer, or a change of what it does with events. -/
theorem Counts.consumer {discards' : Bool} (h : Counts s c discards order lapsed total)
    (hproducers : t.producers = s.producers) (hreturned : t.returned = s.returned)
    (henqueued : t.shared.stats.enqueued = s.shared.stats.enqueued)
    (hwritten : t.delivered.length + s.shared.stats.written + c.unwritten discards =
      s.delivered.length + t.shared.stats.written + c'.unwritten discards')
    (hdropped : t.shared.stats.dropped + c'.undropped discards' + lapsed.length =
      s.shared.stats.dropped + c.undropped discards + lapsed'.length) :
    Counts t c' discards' order lapsed' total where
  written_eq := by
    have hs := h.written_eq
    omega
  enqueued_eq := by rw [henqueued, State.sum, hproducers, h.enqueued_eq, State.sum]
  dropped_eq := by
    have hs := h.dropped_eq
    rw [State.sum] at hs
    rw [henqueued, State.sum, hproducers, hreturned]
    omega
  total_eq := by rw [hreturned, State.sum, hproducers, ← State.sum, h.total_eq]

/-! ## Books -/

/-- What the books of an engine say beside its state. -/
structure Account (α : Type) where
  /-- The records on the stack of the pool. -/
  free : List Nat
  /-- The path of the queue. -/
  chain : List Address
  /-- The events that came into the queue, each with its producer. -/
  order : List (Nat × α)
  /-- The events that were discarded from the queue. -/
  lapsed : List α
  /-- The events that wait. -/
  pending : List α

/-- The number of calls that the producers are to make. -/
def calls (todo : Array (List α)) : Nat := (todo.toList.map List.length).sum

/-- The books agree with the state. -/
structure Books (s : State α) (c : ConsumerPhase) (discards : Bool) (first : UInt32)
    (capacity : Nat) (todo : Array (List α)) (w : Account α) : Prop where
  records : Records s c first capacity w.free w.chain
  events : Events s c capacity w.chain w.order w.lapsed w.pending todo
  counts : Counts s c discards w.order w.lapsed (calls todo)
  /-- The head changes twice for a call at most. -/
  changes_le : s.changes + s.sum Producer.due + w.pending.length + c.due ≤ 2 * calls todo

variable {w : Account α}

/-- The books of a new engine. -/
theorem books_new {drains : Bool} (hnew : State.new capacity drains todo = .ok s) :
    Books s .exhausted false s.shared.pool.head.version capacity todo
      ⟨List.range capacity, [capacity], [], [], []⟩ where
  records := records_new hnew
  events := events_new hnew
  changes_le := by
    rcases eq_of_new hnew with ⟨pool, -, rfl⟩
    have hdouble := List.sum_map_mul_left todo.toList List.length 2
    simp [State.sum, calls, Producer.due, ProducerPhase.due, ProducerPhase.isOffering,
      ConsumerPhase.due, Function.comp_def]
    exact Nat.le_of_eq hdouble
  counts := by
    have hidle : ∀ w ∈ s.producers.toList, w.phase = .idle := fun w hw => phase_eq_of_new hnew hw
    have hunnoted : (s.sum fun p => p.phase.unnoted) = 0 := by
      refine List.sum_eq_zero fun x hx => ?_
      rcases List.mem_map.1 hx with ⟨w, hw, rfl⟩
      rw [hidle w hw]
      rfl
    have hleaving : (s.sum fun p => p.phase.leaving) = 0 := by
      refine List.sum_eq_zero fun x hx => ?_
      rcases List.mem_map.1 hx with ⟨w, hw, rfl⟩
      rw [hidle w hw]
      rfl
    rcases eq_of_new hnew with ⟨pool, -, rfl⟩
    refine ⟨rfl, by rw [hunnoted]; rfl, by rw [hleaving]; rfl, ?_⟩
    simp [State.sum, calls, Producer.owed, ProducerPhase.busy, Function.comp_def]

/-- Nothing waits if nothing is in the queue and nothing with the consumer. -/
theorem Books.pending_eq_nil_iff (h : Books s c discards first capacity todo w) :
    w.pending = [] ↔ s.unhandled c w.chain = [] := by
  have hpending := congrArg List.length h.events.pending_eq
  rw [List.length_map, List.length_map] at hpending
  rw [← List.length_eq_zero_iff, ← List.length_eq_zero_iff, hpending]

/-! ## Steps of a producer -/

/-- The records and the events in them, with what was delivered. -/
structure Stock (α : Type) where
  pool : Pool
  changes : Nat
  queue : Queue
  links : Links
  slots : Slots α
  delivered : List α

/-- The stock of an engine. -/
def State.stock (s : State α) : Stock α where
  pool := s.shared.pool
  changes := s.changes
  queue := s.shared.queue
  links := s.shared.links
  slots := s.shared.slots
  delivered := s.delivered

/-- The parts of an equation between stocks. -/
structure SameStock (s t : State α) : Prop where
  pool : t.shared.pool = s.shared.pool
  changes : t.changes = s.changes
  queue : t.shared.queue = s.shared.queue
  links : t.shared.links = s.shared.links
  slots : t.shared.slots = s.shared.slots
  delivered : t.delivered = s.delivered

theorem sameStock (h : t.stock = s.stock) : SameStock s t := by
  simp only [State.stock, Stock.mk.injEq] at h
  rcases h with ⟨hpool, hchanges, hqueue, hlinks, hslots, hdelivered⟩
  exact ⟨hpool, hchanges, hqueue, hlinks, hslots, hdelivered⟩

theorem filled?_of_isEmptyHanded {phase : ProducerPhase α} (h : phase.isEmptyHanded = true) :
    phase.filled? = none := by
  cases phase <;> first | rfl | cases h

/-- A producer without a record moves on. -/
theorem Books.producer (h : Books s c discards first capacity todo w)
    (hi : s.producers[i]? = some p) (hproducers : t.producers = s.producers.setIfInBounds i p')
    (hstock : t.stock = s.stock) (hempty : p.phase.isEmptyHanded = true)
    (hempty' : p'.phase.isEmptyHanded = true) (hremaining : p'.remaining.Sublist p.remaining)
    (hwritten : t.shared.stats.written = s.shared.stats.written)
    (henqueued : s.shared.stats.enqueued + p.phase.unnoted =
      t.shared.stats.enqueued + p'.phase.unnoted)
    (hdropped : t.shared.stats.enqueued + t.shared.stats.dropped + s.returned + p.phase.leaving =
      s.shared.stats.enqueued + s.shared.stats.dropped + t.returned + p'.phase.leaving)
    (htotal : t.returned + p'.owed = s.returned + p.owed) (hdue : p'.due ≤ p.due) :
    Books t c discards first capacity todo w where
  records := h.records.producer hi hproducers (sameStock hstock).pool (sameStock hstock).changes
    (sameStock hstock).queue (sameStock hstock).links hempty hempty'
  events := h.events.producer_keep hi hproducers (sameStock hstock).slots
    (by rw [(sameStock hstock).queue]) (sameStock hstock).delivered
    (by rw [filled?_of_isEmptyHanded hempty, filled?_of_isEmptyHanded hempty']) hremaining
  counts := h.counts.producer hi hproducers (sameStock hstock).delivered hwritten (by omega)
    hdropped htotal
  changes_le := by
    have hsum := sum_setProducer hi hproducers Producer.due
    have hs := h.changes_le
    rw [(sameStock hstock).changes]
    omega

theorem isEmptyHanded_of_isOffering {phase : ProducerPhase α} (h : phase.isOffering = true) :
    phase.isEmptyHanded = true ∧ phase.unnoted = 0 ∧ phase.leaving = 0 ∧ phase.busy = 1 ∧
      phase.due = 2 := by
  cases phase with
  | acquire a phase =>
      cases phase with
      | readHead => exact ⟨rfl, rfl, rfl, rfl, rfl⟩
      | _ => cases h
  | _ => first | exact ⟨rfl, rfl, rfl, rfl, rfl⟩ | cases h

/-- A producer goes on to offer its event, or gives it up. -/
theorem Books.offering (h : Books s c discards first capacity todo w)
    (hi : s.producers[i]? = some p) {next : ProducerPhase α}
    (hproducers : t.producers = s.producers.setIfInBounds i { p with phase := next })
    (hstock : t.stock = s.stock) (hstats : t.shared.stats = s.shared.stats)
    (hreturned : t.returned = s.returned) (hphase : p.phase.isOffering = true)
    (hnext : next.isOffering = true)
    (hoffered : next.offered? = p.phase.offered? ∨ next.offered? = none) :
    Books t c discards first capacity todo w := by
  rcases isEmptyHanded_of_isOffering hphase with ⟨hempty, hunnoted, hleaving, hbusy, hdue⟩
  rcases isEmptyHanded_of_isOffering hnext with ⟨hempty', hunnoted', hleaving', hbusy', hdue'⟩
  refine h.producer hi hproducers hstock hempty hempty' ?_ (by rw [hstats]) ?_ ?_ ?_ ?_
  · rw [Producer.remaining, Producer.remaining]
    rcases hoffered with heq | hnone
    · rw [heq]
    · rw [hnone]
      exact List.sublist_append_right _ _
  · rw [hstats, hunnoted, hunnoted']
  · rw [hstats, hreturned, hleaving, hleaving']
  · rw [Producer.owed, Producer.owed, hreturned, hbusy, hbusy']
  · rw [Producer.due, Producer.due, hdue, hdue']

/-- An acquisition changes the head once at most. -/
theorem due_acquire (a : α) (phase : Pool.AcquirePhase) (weak : Bool) (pool : Pool)
    (changes : Nat) :
    changesAfter changes pool (phase.step weak pool).2 +
      (ProducerPhase.afterAcquire a (phase.step weak pool).1).due ≤
        changes + (ProducerPhase.acquire a phase).due := by
  have hhead : ∀ seen, (ProducerPhase.afterAcquire a (Pool.AcquirePhase.ofHead seen)).due ≤ 2 := by
    intro seen
    rw [Pool.AcquirePhase.ofHead]
    split
    · exact Nat.zero_le 2
    · exact Nat.le_refl 2
  cases phase with
  | readHead =>
      simp only [Pool.AcquirePhase.step, changesAfter_of_eq]
      exact Nat.add_le_add_left (hhead _) changes
  | readLink seen =>
      simp only [Pool.AcquirePhase.step, changesAfter_of_eq]
      exact Nat.le_refl _
  | exchange seen next =>
      simp only [Pool.AcquirePhase.step]
      split
      · rename_i hsame
        rw [changesAfter_moveTo hsame.2 rfl]
        exact Nat.le_refl _
      · rw [changesAfter_of_eq rfl]
        exact Nat.add_le_add_left (hhead _) changes
  | count index =>
      simp only [Pool.AcquirePhase.step, changesAfter_of_eq]
      exact Nat.le_refl _
  | done index =>
      simp only [Pool.AcquirePhase.step, changesAfter_of_eq]
      cases index with
      | none => exact Nat.le_succ _
      | some index => exact Nat.le_refl _

/-- A producer takes a step of an acquisition. -/
theorem books_acquire (h : Books s c discards first capacity todo w)
    (hi : s.producers[i]? = some p) {phase : Pool.AcquirePhase}
    (hphase : p.phase = .acquire a phase) (htime : p.view.IsTimely s.changes) (weak : Bool) :
    let next := phase.step weak s.shared.pool
    ∃ free, Books ((s.setPool next.2).setProducer i
      (p.afterAcquire a next.1 (s.setPool next.2).changes)) c discards first capacity todo
        { w with free } := by
  rcases records_acquire h.records hi hphase htime weak with ⟨free, hrecords⟩
  refine ⟨free, hrecords, ?_, ?_, ?_⟩
  · refine h.events.producer_keep hi rfl rfl rfl rfl ?_ ?_
    · rw [hphase, Producer.afterAcquire]
      rcases afterAcquire_cases a (phase.step weak s.shared.pool).1 with
        ⟨index, hnext⟩ | hnext | hnext <;> rw [hnext] <;> rfl
    · rw [Producer.remaining, Producer.remaining, hphase, Producer.afterAcquire]
      rcases afterAcquire_cases a (phase.step weak s.shared.pool).1 with
        ⟨index, hnext⟩ | hnext | hnext <;> simp [hnext, ProducerPhase.offered?]
  · have hnext : ∀ next : Pool.AcquirePhase,
        (ProducerPhase.afterAcquire a next).unnoted = 0 ∧
          (ProducerPhase.afterAcquire a next).leaving = 0 ∧
            ∀ readAt, Producer.owed ⟨.afterAcquire a next, p.todo, readAt⟩ = p.owed := by
      intro next
      rw [Producer.owed, hphase]
      rcases afterAcquire_cases a next with ⟨index, hnext⟩ | hnext | hnext <;>
        rw [hnext] <;> exact ⟨rfl, rfl, fun _ => rfl⟩
    rcases hnext (phase.step weak s.shared.pool).1 with ⟨hunnoted, hleaving, howed⟩
    refine h.counts.producer hi rfl rfl rfl ?_ ?_ ?_
    · rw [hphase, Producer.afterAcquire, hunnoted]
      rfl
    · rw [hphase, Producer.afterAcquire, hleaving]
      rfl
    · rw [Producer.afterAcquire, howed]
      rfl
  · have hsum := sum_setProducer (t := (s.setPool (phase.step weak s.shared.pool).2).setProducer i
      (p.afterAcquire a (phase.step weak s.shared.pool).1
        (s.setPool (phase.step weak s.shared.pool).2).changes)) hi rfl Producer.due
    have hdue := due_acquire a phase weak s.shared.pool s.changes
    have hs := h.changes_le
    rw [← hphase] at hdue
    simp only [Producer.due, Producer.afterAcquire] at hsum hs ⊢
    simp only [State.setProducer, State.setPool] at hsum ⊢
    omega

/-- A producer fills its record. -/
theorem books_construct (h : Books s c discards first capacity todo w)
    (hi : s.producers[i]? = some p) (hphase : p.phase = .construct a n) :
    Books ({ s with shared := place s.shared n a }.setProducer i
      { p with phase := .push a (.clear n) }) c discards first capacity todo w := by
  rcases events_construct h.records h.events hi hphase with ⟨slots, hplace, hevents⟩
  have hshared : place s.shared n a = { s.shared with slots } := by rw [place, hplace]
  rw [hshared]
  refine ⟨records_construct h.records hi hphase rfl rfl rfl rfl rfl, hevents rfl rfl rfl rfl, ?_,
    ?_⟩
  · refine h.counts.producer hi rfl rfl rfl ?_ ?_ ?_
    · rw [hphase]
      rfl
    · rw [hphase]
      rfl
    · rw [Producer.owed, Producer.owed, hphase]
      rfl
  · have hsum := sum_setProducer (t := ({ s with shared := { s.shared with slots } }).setProducer i
      { p with phase := .push a (.clear n) }) hi rfl Producer.due
    have hdue : Producer.due { p with phase := .push a (.clear n) } = p.due := by
      rw [Producer.due, Producer.due, hphase]
      rfl
    have hs := h.changes_le
    rw [hdue] at hsum
    simp only [State.setProducer] at hsum ⊢
    omega

/-- A producer takes a step of a push. -/
theorem books_push (h : Books s c discards first capacity todo w)
    (hi : s.producers[i]? = some p) {phase : Queue.PushPhase} (hphase : p.phase = .push a phase) :
    let next := phase.step s.shared.queue s.shared.links
    ∃ w', Books ((s.setQueue next.2.1 next.2.2).setProducer i
        { p with phase := .afterPush a next.1 }) c discards first capacity todo w' ∧
      w'.lapsed = w.lapsed := by
  have hrecords := records_push h.records hi hphase
  have hevents := events_push h.records h.events hi hphase
  have hunnoted : ((exchanged? phase).map fun _ => a).toList.length + p.phase.unnoted =
      (ProducerPhase.afterPush a (phase.step s.shared.queue s.shared.links).1).unnoted := by
    rw [hphase]
    cases phase <;> rfl
  have hdue : ((exchanged? phase).map fun _ => a).toList.length +
      Producer.due { p with phase := .afterPush a (phase.step s.shared.queue s.shared.links).1 } =
        p.due := by
    rw [Producer.due, Producer.due, hphase, ← Nat.add_assoc]
    cases phase <;> rfl
  have hrest : ∀ next : Queue.PushPhase, (ProducerPhase.afterPush a next).leaving = 0 ∧
      Producer.owed { p with phase := .afterPush a next } = p.owed := by
    intro next
    rw [Producer.owed, Producer.owed, hphase]
    cases next <;> exact ⟨rfl, rfl⟩
  dsimp only at hrecords hevents ⊢
  generalize phase.step s.shared.queue s.shared.links = next at *
  refine ⟨⟨w.free, _, _, w.lapsed, _⟩, ⟨hrecords, hevents, ?_, ?_⟩, rfl⟩
  · refine h.counts.producer hi rfl rfl rfl ?_ ?_ ?_
    · rw [List.length_append, List.length_map, ← hunnoted]
      simp only [State.setProducer, State.setQueue]
      omega
    · rw [hphase, (hrest next.1).1]
      rfl
    · rw [(hrest next.1).2]
      rfl
  · have hsum := sum_setProducer (t := (s.setQueue next.2.1 next.2.2).setProducer i
      { p with phase := .afterPush a next.1 }) hi rfl Producer.due
    have hs := h.changes_le
    rw [List.length_append]
    simp only [State.setProducer, State.setQueue] at hsum ⊢
    omega

/-- A step of a producer.  What waits grows only while the producer is admitted. -/
theorem books_stepProducer (h : Books s c discards first capacity todo w)
    (hi : s.producers[i]? = some p) (htime : p.view.IsTimely s.changes) {chance : Chance}
    (hstep : stepProducer s i p chance = some t) :
    ∃ w', Books t c discards first capacity todo w' ∧ w'.lapsed = w.lapsed ∧
      (p.phase.isAdmitted = false → w'.pending = w.pending) := by
  -- all steps but those with a record leave the account as it is
  suffices hkeep : Books t c discards first capacity todo w ∨
      ∃ w', Books t c discards first capacity todo w' ∧ w'.lapsed = w.lapsed ∧
        (p.phase.isAdmitted = false → w'.pending = w.pending) by
    rcases hkeep with hkeep | hmove
    · exact ⟨w, hkeep, rfl, fun _ => rfl⟩
    · exact hmove
  cases hphase : p.phase with
  | idle =>
      simp only [stepProducer, hphase] at hstep
      split at hstep
      · cases hstep
      · rename_i a rest htodo
        cases hstep
        refine Or.inl (h.producer hi rfl rfl (by rw [hphase]; rfl) rfl ?_
          rfl (by rw [hphase]; rfl) (by rw [hphase]; rfl) ?_ ?_)
        · simp [Producer.remaining, hphase, htodo, ProducerPhase.offered?]
        · simp [Producer.owed, ProducerPhase.busy, hphase, htodo, State.setProducer, Nat.add_comm]
        · simp [Producer.due, ProducerPhase.due, ProducerPhase.isOffering, hphase, htodo]
          omega
  | checkStarted a =>
      simp only [stepProducer, hphase] at hstep
      cases hstep
      refine Or.inl (h.offering hi rfl rfl rfl rfl (by rw [hphase]; rfl)
        ?_ ?_)
      · split <;> rfl
      · rw [hphase]
        split <;> exact Or.inl rfl
  | lock a =>
      simp only [stepProducer, hphase] at hstep
      split at hstep
      · cases hstep
        exact Or.inl (h.offering hi rfl rfl rfl rfl
          (by rw [hphase]; rfl) rfl (by rw [hphase]; exact Or.inl rfl))
      · cases hstep
  | launch a =>
      simp only [stepProducer, hphase] at hstep
      split at hstep
      · cases hstep
        exact Or.inl (h.offering hi rfl rfl rfl rfl
          (by rw [hphase]; rfl) rfl (by rw [hphase]; exact Or.inl rfl))
      · cases hstep
        exact Or.inl (h.offering hi rfl rfl rfl rfl
          (by rw [hphase]; rfl) rfl (by rw [hphase]; exact Or.inl rfl))
  | markStarted a spawned =>
      simp only [stepProducer, hphase] at hstep
      cases hstep
      exact Or.inl (h.offering hi rfl rfl rfl rfl
        (by rw [hphase]; rfl) rfl (by rw [hphase]; exact Or.inl rfl))
  | conclude a spawned =>
      simp only [stepProducer, hphase] at hstep
      split at hstep
      · cases hstep
        exact Or.inl (h.offering hi rfl rfl rfl rfl
          (by rw [hphase]; rfl) rfl (by rw [hphase]; exact Or.inl rfl))
      · cases hstep
        exact Or.inl (h.offering hi rfl rfl rfl rfl
          (by rw [hphase]; rfl) rfl (by rw [hphase]; exact Or.inl rfl))
  | unlock a =>
      simp only [stepProducer, hphase] at hstep
      cases hstep
      exact Or.inl (h.offering hi rfl rfl rfl rfl
        (by rw [hphase]; rfl) rfl (by rw [hphase]; exact Or.inl rfl))
  | enter a =>
      simp only [stepProducer, hphase] at hstep
      cases hstep
      exact Or.inl (h.offering hi rfl rfl rfl rfl
        (by rw [hphase]; rfl) rfl (by rw [hphase]; exact Or.inl rfl))
  | checkAccepting a =>
      simp only [stepProducer, hphase] at hstep
      cases hstep
      refine Or.inl (h.offering hi rfl rfl rfl rfl (by rw [hphase]; rfl)
        ?_ ?_)
      · split <;> rfl
      · rw [hphase]
        split
        · exact Or.inl rfl
        · exact Or.inr rfl
  | leaveRefused a =>
      simp only [stepProducer, hphase] at hstep
      cases hstep
      exact Or.inl (h.offering hi rfl rfl rfl rfl
        (by rw [hphase]; rfl) rfl (Or.inr rfl))
  | countRefused a =>
      simp only [stepProducer, hphase] at hstep
      cases hstep
      refine Or.inl (h.producer hi rfl rfl (by rw [hphase]; rfl) rfl ?_
        rfl (by rw [hphase]; rfl) ?_ ?_ (Nat.add_le_add_right (Nat.zero_le _) _))
      · simp [Producer.remaining, ProducerPhase.offered?]
      · rw [hphase]
        simp only [ProducerPhase.leaving, State.setProducer, Shared.refuse, Shared.countDropped,
          Shared.destroy]
        omega
      · simp only [Producer.owed, ProducerPhase.busy, hphase, State.setProducer]
        omega
  | acquire a phase =>
      simp only [stepProducer, hphase] at hstep
      cases hstep
      rcases books_acquire h hi hphase htime chance.weak with ⟨free, hbooks⟩
      exact Or.inr ⟨_, hbooks, rfl, fun _ => rfl⟩
  | construct a n =>
      simp only [stepProducer, hphase] at hstep
      cases hstep
      exact Or.inl (books_construct h hi hphase)
  | push a phase =>
      simp only [stepProducer, hphase] at hstep
      cases hstep
      rcases books_push h hi hphase with ⟨w', hbooks, hlapsed⟩
      exact Or.inr ⟨w', hbooks, hlapsed, fun hadmitted => by cases hadmitted⟩
  | countEnqueued =>
      simp only [stepProducer, hphase] at hstep
      cases hstep
      refine Or.inl (h.producer hi rfl rfl (by rw [hphase]; rfl) rfl ?_
        rfl ?_ ?_ ?_ (Nat.add_le_add_right (Nat.zero_le _) _))
      · simp [Producer.remaining, ProducerPhase.offered?]
      · rw [hphase]
        rfl
      · rw [hphase]
        simp only [ProducerPhase.leaving, State.setProducer, Shared.countEnqueued]
        omega
      · rw [Producer.owed, Producer.owed, hphase]
        rfl
  | countExhausted a =>
      simp only [stepProducer, hphase] at hstep
      cases hstep
      refine Or.inl (h.producer hi rfl rfl (by rw [hphase]; rfl) rfl ?_
        rfl ?_ ?_ ?_ (Nat.add_le_add_right (Nat.zero_le _) _))
      · simp [Producer.remaining, ProducerPhase.offered?]
      · rw [hphase]
        rfl
      · rw [hphase]
        simp only [ProducerPhase.leaving, State.setProducer, Shared.refuse, Shared.countDropped,
          Shared.destroy]
        omega
      · rw [Producer.owed, Producer.owed, hphase]
        rfl
  | leave =>
      simp only [stepProducer, hphase] at hstep
      cases hstep
      refine Or.inl (h.producer hi rfl rfl (by rw [hphase]; rfl) rfl ?_
        rfl (by rw [hphase]; rfl) ?_ ?_ (Nat.add_le_add_right (Nat.zero_le _) _))
      · simp [Producer.remaining, ProducerPhase.offered?]
      · rw [hphase]
        simp only [ProducerPhase.leaving, State.setProducer]
        omega
      · simp only [Producer.owed, ProducerPhase.busy, hphase, State.setProducer]
        omega

/-! ## Steps of the consumer -/

/-- The consumer goes on without a record of the queue. -/
theorem Books.consumer {discards' : Bool} (h : Books s c discards first capacity todo w)
    (hproducers : t.producers = s.producers) (hstock : t.stock = s.stock)
    (hrecords : c'.view.records.Perm c.view.records)
    (hcount : c'.view.activity.uncounted = c.view.activity.uncounted)
    (hknows : ∀ pool changes, c'.view.activity.Knows pool first changes c'.view.readAt)
    (hpop : c.pop? = none ∨ c.pop? = some .start) (hpop' : c'.pop? = none ∨ c'.pop? = some .start)
    (hhandle : c.handle? = none) (hhandle' : c'.handle? = none) (hdue : c'.due ≤ c.due)
    (hcounts : Counts t c' discards' w.order w.lapsed (calls todo)) :
    Books t c' discards' first capacity todo w where
  records := by
    have hown : ∀ {c : ConsumerPhase}, c.pop? = none ∨ c.pop? = some .start →
        c.pop?.bind (Queue.PopPhase.ownPush s.shared.queue.stub) = none := by
      intro c hc
      rcases hc with hc | hc <;> rw [hc] <;> rfl
    refine (h.records.consumer hrecords hcount (hknows _ _) (hown hpop) (hown hpop') ?_).congr
      (sameStock hstock).pool (sameStock hstock).changes (sameStock hstock).queue
      (sameStock hstock).links hproducers
    intro phase hphase
    rcases hpop' with hnone | hstart
    · rw [hnone] at hphase
      cases hphase
    · rw [hstart] at hphase
      cases hphase
      trivial
  events := by
    refine h.events.congr hproducers (sameStock hstock).slots (sameStock hstock).delivered ?_
    rw [State.unhandled, State.unhandled, hhandle, hhandle', (sameStock hstock).queue]
  counts := hcounts
  changes_le := by
    have hs := h.changes_le
    rw [State.sum] at hs
    rw [(sameStock hstock).changes, State.sum, hproducers]
    omega

/-- The consumer begins to pop, or is not there. -/
def ConsumerPhase.isResting : ConsumerPhase → Bool
  | .pop .start => true
  | .exhausted => true
  | _ => false

theorem eq_of_isResting (h : c.isResting = true) : c = .pop .start ∨ c = .exhausted := by
  cases c with
  | pop phase =>
      cases phase with
      | start => exact Or.inl rfl
      | _ => cases h
  | exhausted => exact Or.inr rfl
  | _ => cases h

/-- Between two pops the consumer can be exchanged. -/
theorem Books.rest {discards' : Bool} (h : Books s c discards first capacity todo w)
    (hproducers : t.producers = s.producers) (hstock : t.stock = s.stock)
    (hstats : t.shared.stats = s.shared.stats) (hreturned : t.returned = s.returned)
    (hc : c.isResting = true) (hc' : c'.isResting = true) :
    Books t c' discards' first capacity todo w := by
  have hnothing : ∀ {c : ConsumerPhase} (b : Bool), c.isResting = true →
      c.unwritten b = 0 ∧ c.undropped b = 0 := by
    intro c b hc
    rcases eq_of_isResting hc with rfl | rfl <;> exact ⟨rfl, rfl⟩
  have hcounts : Counts t c' discards' w.order w.lapsed (calls todo) := by
    refine h.counts.consumer hproducers hreturned (by rw [hstats]) ?_ ?_
    · rw [hstats, (sameStock hstock).delivered, (hnothing discards hc).1,
        (hnothing discards' hc').1]
    · rw [hstats, (hnothing discards hc).2, (hnothing discards' hc').2]
  rcases eq_of_isResting hc with rfl | rfl <;> rcases eq_of_isResting hc' with rfl | rfl <;>
    exact h.consumer hproducers hstock (List.Perm.refl _) rfl (fun _ _ => trivial)
      (by simp [ConsumerPhase.pop?]) (by simp [ConsumerPhase.pop?]) rfl rfl (Nat.le_refl 0) hcounts

/-- A step of a pop, which comes back without a record only if nothing waits. -/
theorem books_pop {phase : Queue.PopPhase}
    (h : Books s (.pop phase) discards first capacity todo w) :
    let next := phase.step s.shared.queue s.shared.links
    ∃ chain, Books (s.setQueue next.2.1 next.2.2) (.afterPop next.1) discards first capacity todo
        { w with chain } ∧
      (ConsumerPhase.afterPop next.1 = .exhausted → w.pending = []) := by
  rcases records_pop h.records with ⟨chain, hrecords, hcontent, hempty⟩
  have hevents := events_pop h.events hcontent
  dsimp only at hevents ⊢
  generalize phase.step s.shared.queue s.shared.links = next at *
  have hnothing : (ConsumerPhase.afterPop next.1).unwritten discards = 0 ∧
      (ConsumerPhase.afterPop next.1).undropped discards = 0 ∧
        (ConsumerPhase.afterPop next.1).due = 0 := by
    rcases afterPop_cases next.1 with ⟨index, hnext⟩ | hnext | ⟨hnext, -, -⟩ <;> rw [hnext] <;>
      exact ⟨rfl, rfl, rfl⟩
  have hcounts : Counts (s.setQueue next.2.1 next.2.2) (.afterPop next.1) discards w.order w.lapsed
      (calls todo) := by
    refine h.counts.consumer rfl rfl rfl ?_ ?_
    · rw [hnothing.1]
      rfl
    · rw [hnothing.2.1]
      rfl
  refine ⟨chain, ⟨hrecords, hevents, hcounts, hnothing.2.2 ▸ h.changes_le⟩, fun hexhausted => ?_⟩
  have hdone : next.1 = .done none := by
    rcases afterPop_cases next.1 with ⟨index, hnext⟩ | hnext | ⟨hnext, -, -⟩
    · rw [hnext] at hexhausted
      cases hexhausted
    · exact hnext
    · rw [hnext] at hexhausted
      cases hexhausted
  rw [h.pending_eq_nil_iff, State.unhandled, hempty hdone]
  rfl

/-- A release changes the head once. -/
theorem due_release {following : ConsumerPhase} (hfollowing : following.due = 0)
    (phase : Pool.ReleasePhase) (weak : Bool) (pool : Pool) (changes : Nat) :
    changesAfter changes pool (phase.step weak pool).2 +
      (ConsumerPhase.afterRelease following (phase.step weak pool).1).due ≤
        changes + (ConsumerPhase.release phase).due := by
  cases phase with
  | exchange index seen =>
      simp only [Pool.ReleasePhase.step]
      split
      · rename_i hsame
        rw [changesAfter_moveTo hsame.2 rfl]
        exact Nat.le_refl _
      · rw [changesAfter_of_eq rfl]
        exact Nat.le_refl _
  | readHead index =>
      simp only [Pool.ReleasePhase.step, changesAfter_of_eq]
      exact Nat.le_refl _
  | writeLink index seen =>
      simp only [Pool.ReleasePhase.step, changesAfter_of_eq]
      exact Nat.le_refl _
  | count =>
      simp only [Pool.ReleasePhase.step, ConsumerPhase.afterRelease, changesAfter_of_eq, hfollowing]
      exact Nat.le_refl _
  | done =>
      simp only [Pool.ReleasePhase.step, ConsumerPhase.afterRelease, changesAfter_of_eq, hfollowing]
      exact Nat.le_refl _

/-- A step of a release. -/
theorem books_release {phase : Pool.ReleasePhase} {following : ConsumerPhase}
    (h : Books s (.release phase) discards first capacity todo w)
    (hfollowing : following = .pop .start ∧ discards = false ∨
      following = .countDropped ∧ discards = true) (weak : Bool) :
    let next := phase.step weak s.shared.pool
    ∃ free, Books (s.setPool next.2) (.afterRelease following next.1) discards first capacity todo
      { w with free } := by
  have hview : following.view = {} := by
    rcases hfollowing with ⟨rfl, -⟩ | ⟨rfl, -⟩ <;> rfl
  have hpop : following.pop? = none ∨ following.pop? = some .start := by
    rcases hfollowing with ⟨rfl, -⟩ | ⟨rfl, -⟩
    · exact Or.inr rfl
    · exact Or.inl rfl
  rcases records_release h.records hview hpop weak with ⟨free, hrecords⟩
  have hrest : following.due = 0 := by
    rcases hfollowing with ⟨rfl, -⟩ | ⟨rfl, -⟩ <;> rfl
  have hdue := due_release hrest phase weak s.shared.pool s.changes
  dsimp only
  generalize phase.step weak s.shared.pool = next at *
  have hnext : (ConsumerPhase.afterRelease following next.1).handle? = none ∧
      (ConsumerPhase.afterRelease following next.1).unwritten discards = 0 ∧
        (ConsumerPhase.afterRelease following next.1).undropped discards =
          if discards then 1 else 0 := by
    rcases hfollowing with ⟨rfl, rfl⟩ | ⟨rfl, rfl⟩ <;> cases next.1 <;> exact ⟨rfl, rfl, rfl⟩
  refine ⟨free, hrecords, h.events.congr rfl rfl rfl ?_, h.counts.consumer rfl rfl rfl ?_ ?_, ?_⟩
  · rw [State.unhandled, State.unhandled, hnext.1]
    rfl
  · rw [hnext.2.1]
    rfl
  · rw [hnext.2.2]
    rfl
  · have hs := h.changes_le
    simp only [State.setPool, State.sum] at hs ⊢
    omega

/-- What destroying an event does to its record. -/
theorem destroyIn_of_payload? {shared : Shared α} (h : shared.slots.payload? n = some a) :
    shared.destroyIn n = { shared.destroy a with slots := shared.slots.clear n } := by
  rw [Shared.destroyIn, h]

/-- A step of a consumer that delivers. -/
theorem books_stepDeliver (h : Books s c false first capacity todo w) (hlapsed : w.lapsed = [])
    (chance : Chance) :
    ∃ w', Books (stepDeliver s chance c).2 (stepDeliver s chance c).1 false first capacity todo w' ∧
      w'.lapsed = [] ∧ (w.pending = [] → w'.pending = []) ∧
      (c ≠ .exhausted → (stepDeliver s chance c).1 = .exhausted → w'.pending = []) := by
  cases c with
  | pop phase =>
      rcases books_pop h with ⟨chain, hbooks, hempty⟩
      exact ⟨_, hbooks, hlapsed, id, fun _ hexhausted => hempty hexhausted⟩
  | handle n =>
      rcases h.events.take h.records with ⟨a, rest, hpending, hpayload, htake⟩
      have hdestroy := destroyIn_of_payload? hpayload
      have hrecords : Records s (.countWritten n) first capacity w.free w.chain :=
        h.records.consumer (List.Perm.refl _) rfl trivial rfl rfl
          fun phase hphase => by cases hphase
      refine ⟨{ w with pending := rest }, ⟨?_, ?_, ?_, ?_⟩, hlapsed, ?_,
        fun _ hnext => by cases hnext⟩
      · simp only [stepDeliver, hdestroy, hpayload]
        exact hrecords.congr rfl rfl rfl rfl rfl
      · simp only [stepDeliver, hdestroy, hpayload]
        exact htake rfl rfl rfl rfl (by simp [hlapsed])
      · simp only [stepDeliver, hdestroy, hpayload]
        refine h.counts.consumer rfl rfl rfl ?_ rfl
        simp [ConsumerPhase.unwritten, Shared.destroy]
        omega
      · have hs := h.changes_le
        rw [hpending, List.length_cons] at hs
        simpa [stepDeliver, State.sum, ConsumerPhase.due, Nat.add_assoc] using hs
      · rw [hpending]
        intro hnil
        cases hnil
  | countWritten n =>
      refine ⟨w, h.consumer rfl rfl ?_ rfl (fun _ _ => trivial)
        (Or.inl rfl) (Or.inl rfl) rfl rfl (Nat.le_refl _) ?_, hlapsed, id,
        fun _ hnext => by cases hnext⟩
      · exact List.Perm.refl _
      · refine h.counts.consumer rfl rfl rfl ?_ rfl
        simp [stepDeliver, ConsumerPhase.unwritten, Shared.countWritten]
        omega
  | release phase =>
      rcases books_release h (Or.inl ⟨rfl, rfl⟩) chance.weak with ⟨free, hbooks⟩
      refine ⟨_, hbooks, hlapsed, id, fun _ hnext => ?_⟩
      simp only [stepDeliver] at hnext
      cases hphase : (phase.step chance.weak s.shared.pool).1 <;> rw [hphase] at hnext <;>
        cases hnext
  | countDropped =>
      refine ⟨w, h.consumer rfl rfl ?_ rfl (fun _ _ => trivial)
        (Or.inl rfl) (Or.inr rfl) rfl rfl (Nat.le_refl _) (h.counts.consumer rfl rfl rfl rfl rfl),
        hlapsed, id, fun _ hnext => by cases hnext⟩
      exact List.Perm.refl _
  | exhausted => exact ⟨w, h, hlapsed, id, fun hne => absurd rfl hne⟩

/-- A step of a consumer that discards.  If nothing waits it discards nothing. -/
theorem books_stepDiscard (h : Books s c true first capacity todo w) (chance : Chance) :
    ∃ w', Books (stepDiscard s chance c).2 (stepDiscard s chance c).1 true first capacity todo w' ∧
      (w.pending = [] → w'.pending = [] ∧ w'.lapsed = w.lapsed) ∧
      (c ≠ .exhausted → (stepDiscard s chance c).1 = .exhausted → w'.pending = []) := by
  cases c with
  | pop phase =>
      rcases books_pop h with ⟨chain, hbooks, hempty⟩
      exact ⟨_, hbooks, fun hnil => ⟨hnil, rfl⟩, fun _ hexhausted => hempty hexhausted⟩
  | handle n =>
      rcases h.events.take h.records with ⟨a, rest, hpending, hpayload, htake⟩
      have hdestroy := destroyIn_of_payload? hpayload
      have hrecords : Records s (.release (.readHead n)) first capacity w.free w.chain :=
        h.records.consumer (List.Perm.refl _) rfl trivial rfl rfl
          fun phase hphase => by cases hphase
      refine ⟨{ w with pending := rest, lapsed := w.lapsed ++ [a] }, ⟨?_, ?_, ?_, ?_⟩, ?_,
        fun _ hnext => by cases hnext⟩
      · simp only [stepDiscard, hdestroy]
        exact hrecords.congr rfl rfl rfl rfl rfl
      · simp only [stepDiscard, hdestroy]
        exact htake rfl rfl rfl rfl (by simp)
      · simp only [stepDiscard, hdestroy]
        refine h.counts.consumer rfl rfl rfl rfl ?_
        simp [ConsumerPhase.undropped, Shared.destroy]
        omega
      · have hs := h.changes_le
        rw [hpending, List.length_cons] at hs
        simpa [stepDiscard, State.sum, ConsumerPhase.due, Nat.add_assoc] using hs
      · rw [hpending]
        intro hnil
        cases hnil
  | countWritten n =>
      refine ⟨w, h.consumer rfl rfl ?_ rfl (fun _ _ => trivial)
        (Or.inl rfl) (Or.inl rfl) rfl rfl (Nat.le_refl _) (h.counts.consumer rfl rfl rfl rfl rfl),
        fun hnil => ⟨hnil, rfl⟩, fun _ hnext => by cases hnext⟩
      exact List.Perm.refl _
  | release phase =>
      rcases books_release h (Or.inr ⟨rfl, rfl⟩) chance.weak with ⟨free, hbooks⟩
      refine ⟨_, hbooks, fun hnil => ⟨hnil, rfl⟩, fun _ hnext => ?_⟩
      simp only [stepDiscard] at hnext
      cases hphase : (phase.step chance.weak s.shared.pool).1 <;> rw [hphase] at hnext <;>
        cases hnext
  | countDropped =>
      refine ⟨w, h.consumer rfl rfl ?_ rfl (fun _ _ => trivial)
        (Or.inl rfl) (Or.inr rfl) rfl rfl (Nat.le_refl _) (h.counts.consumer rfl rfl rfl rfl ?_),
        fun hnil => ⟨hnil, rfl⟩, fun _ hnext => by cases hnext⟩
      · exact List.Perm.refl _
      · simp [stepDiscard, ConsumerPhase.undropped, Shared.countDropped]
  | exhausted => exact ⟨w, h, fun hnil => ⟨hnil, rfl⟩, fun hne => absurd rfl hne⟩

end EngineThreads

end EventLog
