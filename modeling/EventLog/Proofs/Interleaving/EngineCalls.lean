import EventLog.Proofs.Interleaving.EngineShutdown
import EventLog.Proofs.Interleaving.PoolRuns

/-!
# Calls that nobody interrupts

The atomic steps of a thread that is left alone add up to an operation on the shared state: a call
of a producer to `Shared.offer`, a turn of the worker to `Shared.takeOldest` and `Shared.retire`.
A call on an engine whose queue is empty and the worker's turn behind it move the version of the
pool's head on by two and free the record again.

Main results:

- `EngineThreads.run?_offer`: a call that nobody interrupts.
- `EngineThreads.run?_delivery`: a turn of the worker that nobody interrupts.
- `EngineThreads.run?_offer_delivery`: both, one after the other.
-/

namespace EventLog

namespace EngineThreads

variable {α : Type} {s t : State α} {i r : Nat} {a : α} {todo : List α} {readAt : Nat}

/-! ## Schedules -/

/-- A schedule goes on where another one ends. -/
theorem run?_append {before after : List (Thread × Chance)} (h : run? s before = some t) :
    run? s (before ++ after) = run? t after := by
  induction before generalizing s with
  | nil =>
      cases h
      rfl
  | cons move before ih =>
      rcases move with ⟨thread, chance⟩
      rw [run?] at h
      rw [List.cons_append, run?]
      cases hstep : step? s thread chance with
      | none =>
          rw [hstep] at h
          cases h
      | some u =>
          rw [hstep] at h
          exact ih h

/-- A number of steps of one thread. -/
def alone (thread : Thread) (steps : Nat) : List (Thread × Chance) :=
  List.replicate steps (thread, {})

theorem alone_add (thread : Thread) (m n : Nat) :
    alone thread (m + n) = alone thread m ++ alone thread n :=
  List.replicate_append_replicate.symm

/-! ## Producers -/

/-- A producer that acquires alone gets what the operation gives. -/
theorem run?_acquire {q : Pool}
    (hi : s.producers[i]? = some ⟨.acquire a .readHead, todo, readAt⟩)
    (hacquire : s.shared.pool.acquire = .ok (some r, q)) :
    run? s (alone (.producer i) 4) = some { s with
      shared := { s.shared with pool := q }
      producers := s.producers.setIfInBounds i ⟨.construct a r, todo, s.changes⟩
      changes := s.changes + 1 } := by
  have hsize : i < s.producers.size := (Array.getElem?_eq_some_iff.1 hi).1
  rcases PoolThreads.exists_link_of_acquire hacquire with ⟨next, hlink, htop, hnext, rfl⟩
  simp only [alone, List.replicate, run?, step?, stepProducer, hi, Pool.AcquirePhase.step,
    Pool.AcquirePhase.ofHead, hlink, htop, hnext, if_false, if_true, and_self, Option.getD_some,
    Bool.false_eq_true, State.setPool, State.setProducer, Producer.afterAcquire,
    ProducerPhase.afterAcquire, PoolThreads.readsHead, PoolThreads.changesAfter,
    PoolThreads.moveTo_ne, Array.getElem?_setIfInBounds_self_of_lt hsize,
    Array.setIfInBounds_setIfInBounds]

/-- A producer that hands over its record alone puts its event into it and it into the queue. -/
theorem run?_handOver {slots : Slots α}
    (hi : s.producers[i]? = some ⟨.construct a r, todo, readAt⟩)
    (hplace : s.shared.slots.place r a = .ok slots) :
    run? s (alone (.producer i) 4) = some { s with
      shared := s.shared.append r a
      producers := s.producers.setIfInBounds i ⟨.countEnqueued, todo, readAt⟩ } := by
  have hsize : i < s.producers.size := (Array.getElem?_eq_some_iff.1 hi).1
  simp only [alone, List.replicate, run?, step?, stepProducer, hi, place, hplace,
    Queue.PushPhase.step, State.setQueue, State.setProducer, ProducerPhase.afterPush,
    Shared.append, Queue.push, Array.getElem?_setIfInBounds_self_of_lt hsize,
    Array.setIfInBounds_setIfInBounds]

/-- A call that nobody interrupts does what the operation does. -/
theorem run?_offer {q : Pool} {slots : Slots α}
    (hi : s.producers[i]? = some ⟨.idle, a :: todo, readAt⟩) (hstarted : s.started = true)
    (haccepting : s.shared.accepting = true) (hacquire : s.shared.pool.acquire = .ok (some r, q))
    (hplace : s.shared.slots.place r a = .ok slots) :
    run? s (alone (.producer i) 14) = some { s with
      shared := s.shared.offer a
      producers := s.producers.setIfInBounds i ⟨.idle, todo, s.changes⟩
      returned := s.returned + 1
      changes := s.changes + 1 } := by
  have hsize : i < s.producers.size := (Array.getElem?_eq_some_iff.1 hi).1
  have henter : run? s (alone (.producer i) 4) = some { s with
      producers := s.producers.setIfInBounds i ⟨.acquire a .readHead, todo, readAt⟩
      inside := s.inside + 1 } := by
    simp only [alone, List.replicate, run?, step?, stepProducer, hi, hstarted, haccepting, if_true,
      State.setProducer, Array.getElem?_setIfInBounds_self_of_lt hsize,
      Array.setIfInBounds_setIfInBounds]
  have hplaced : ∀ p, (s.producers.setIfInBounds i p)[i]? = some p := fun p =>
    Array.getElem?_setIfInBounds_self_of_lt hsize
  rw [alone_add _ 4 10, run?_append henter, alone_add _ 4 6]
  refine Eq.trans (run?_append (run?_acquire (hplaced _) hacquire)) ?_
  rw [Array.setIfInBounds_setIfInBounds, alone_add _ 4 2]
  refine Eq.trans (run?_append (run?_handOver (hplaced _) hplace)) ?_
  simp only [alone, List.replicate, run?, step?, stepProducer, State.setProducer, hplaced,
    Array.setIfInBounds_setIfInBounds, Shared.offer,
    haccepting, hacquire, Bool.not_true, Bool.false_eq_true, if_false, Nat.add_sub_cancel,
    Shared.countEnqueued]

/-! ## The worker -/

/-- There is one record in the queue. -/
structure QueuesOnly (s : Shared α) (stub : Address) (r : Nat) : Prop where
  queue_eq : s.queue = ⟨stub, stub, r⟩
  ne_stub : r ≠ stub
  first : s.links.get stub = some r
  last : s.links.get r = none
  lt_size : r < s.links.size
  stub_lt_size : stub < s.links.size

/-- A worker that takes the only record in the queue alone gets what the operation gives. -/
theorem run?_takeOldest {stub : Address} (hworker : s.worker = .consume false (.pop .start))
    (h : QueuesOnly s.shared stub r) :
    run? s (alone .worker 7) = some { s with
      shared := s.shared.takeOldest.2
      worker := .consume false (.handle r) } := by
  simp only [alone, List.replicate, run?, step?, stepWorker, hworker, stepDeliver, h.queue_eq,
    h.ne_stub, h.first, h.last, if_true, if_false, Queue.PopPhase.step, Queue.PopPhase.handOut,
    ConsumerPhase.afterPop, WorkerPhase.afterDeliver, State.setQueue, Links.get_set,
    Links.size_set, h.lt_size, h.stub_lt_size, and_self, false_and, Shared.takeOldest, Queue.pop,
    Queue.detachHead, Queue.push, ne_eq, not_true]

/-- A worker that delivers a record alone and gives it back does what the operation does. -/
theorem run?_retire (hworker : s.worker = .consume false (.handle r))
    (hpayload : s.shared.slots.payload? r = some a) (hr : r < s.shared.pool.capacity)
    (hcapacity : s.shared.pool.capacity ≤ maxPoolCapacity) :
    run? s (alone .worker 6) = some { s with
      shared := s.shared.retire r
      worker := .checkRunning
      delivered := a :: s.delivered
      changes := s.changes + 1 } := by
  have hnat : (UInt32.ofNat r).toNat = r := by
    have hsize : maxPoolCapacity < UInt32.size := by decide
    exact UInt32.toNat_ofNat_of_lt' (by omega)
  have hclear : (s.shared.slots.clear r).isOccupied r = false := by
    simp [Slots.isOccupied, Slots.payload?_clear]
  simp only [alone, List.replicate, run?, step?, stepWorker, hworker, stepDeliver, hpayload,
    Shared.destroyIn, Option.toList_some, List.singleton_append, Shared.destroy,
    Shared.countWritten, Pool.ReleasePhase.step, ConsumerPhase.afterRelease,
    WorkerPhase.afterDeliver, State.setPool, and_self, if_true, PoolThreads.changesAfter,
    PoolThreads.moveTo_ne, if_false, Shared.retire, Shared.release, hclear, Bool.false_eq_true,
    Pool.release, Pool.Owns, Pool.record, hnat, hr, Pool.pushFree]

/-- Taking a record out of the queue touches neither the pool nor what the records hold. -/
theorem pool_takeOldest (s : Shared α) :
    s.takeOldest.2.pool = s.pool ∧ s.takeOldest.2.slots = s.slots := by
  unfold Shared.takeOldest
  split <;> exact ⟨rfl, rfl⟩

/-- A turn of the worker that nobody interrupts delivers the only event in the queue. -/
theorem run?_delivery {stub : Address} (hworker : s.worker = .checkRunning)
    (hrunning : s.shared.running = true) (h : QueuesOnly s.shared stub r)
    (hpayload : s.shared.slots.payload? r = some a) (hr : r < s.shared.pool.capacity)
    (hcapacity : s.shared.pool.capacity ≤ maxPoolCapacity) :
    run? s (alone .worker 14) = some { s with
      shared := s.shared.takeOldest.2.retire r
      delivered := a :: s.delivered
      changes := s.changes + 1 } := by
  have hcheck : run? s (alone .worker 1) =
      some { s with worker := .consume false (.pop .start) } := by
    simp only [alone, List.replicate, run?, step?, stepWorker, hworker, hrunning, if_true]
  rw [alone_add _ 1 13, run?_append hcheck, alone_add _ 7 6]
  refine Eq.trans (run?_append (run?_takeOldest rfl h)) ?_
  rcases pool_takeOldest s.shared with ⟨hpool, hslots⟩
  rw [← hslots] at hpayload
  rw [← hpool] at hr hcapacity
  refine Eq.trans (run?_retire rfl hpayload hr hcapacity) ?_
  rw [← hworker]

/-! ## A call and its delivery -/

/-- The engine is open, nothing is queued, and the worker is about to look whether it is to go
on. -/
structure State.IsAtRest (s : State α) (stub : Address) : Prop where
  started : s.started = true
  accepting : s.shared.accepting = true
  running : s.shared.running = true
  worker : s.worker = .checkRunning
  queue_eq : s.shared.queue = .new stub
  stub_lt : stub < s.shared.links.size
  capacity_le : s.shared.pool.capacity ≤ stub
  size_eq : s.shared.slots.size = s.shared.pool.capacity
  supported : s.shared.pool.capacity ≤ maxPoolCapacity

/-- An event that finds a free record is put into it and the record into the queue. -/
theorem offer_of_acquire {s : Shared α} {q : Pool} {slots : Slots α}
    (haccepting : s.accepting = true) (hacquire : s.pool.acquire = .ok (some r, q))
    (hplace : s.slots.place r a = .ok slots) :
    s.offer a = { s with
      pool := q
      slots
      queue := { s.queue with tail := r }
      links := (s.links.set r none).set s.queue.tail (some r)
      stats := { s.stats with enqueued := s.stats.enqueued + 1 } } := by
  simp only [Shared.offer, haccepting, Bool.not_true, Bool.false_eq_true, if_false, hacquire,
    Shared.append, hplace, Queue.push, Shared.countEnqueued]

/-- A record that is acquired is one of the pool. -/
theorem lt_capacity_of_acquire {p q : Pool} (h : p.acquire = .ok (some r, q)) : r < p.capacity := by
  rcases PoolThreads.exists_link_of_acquire h with ⟨next, -, -, hnext, -⟩
  exact (Array.getElem?_eq_some_iff.1 hnext).1

/-- After a call on an engine at rest its record is the only one in the queue. -/
theorem State.IsAtRest.queuesOnly_offer {stub : Address} {q : Pool} {slots : Slots α}
    (h : s.IsAtRest stub) (hacquire : s.shared.pool.acquire = .ok (some r, q))
    (hplace : s.shared.slots.place r a = .ok slots) : QueuesOnly (s.shared.offer a) stub r := by
  have hbelow : r < stub := Nat.lt_of_lt_of_le (lt_capacity_of_acquire hacquire) h.capacity_le
  have hsize : r < s.shared.links.size := Nat.lt_trans hbelow h.stub_lt
  rw [offer_of_acquire h.accepting hacquire hplace]
  constructor <;>
    simp [h.queue_eq, Queue.new, Links.get_set, Nat.ne_of_lt hbelow, hsize, h.stub_lt]

/-- A call on an engine at rest, and the turn of the worker that delivers its event. -/
theorem run?_offer_delivery {stub : Address} {q : Pool} {slots : Slots α} (h : s.IsAtRest stub)
    (hi : s.producers[i]? = some ⟨.idle, a :: todo, readAt⟩)
    (hacquire : s.shared.pool.acquire = .ok (some r, q))
    (hplace : s.shared.slots.place r a = .ok slots) :
    run? s (alone (.producer i) 14 ++ alone .worker 14) = some { s with
      shared := (s.shared.offer a).takeOldest.2.retire r
      producers := s.producers.setIfInBounds i ⟨.idle, todo, s.changes⟩
      delivered := a :: s.delivered
      returned := s.returned + 1
      changes := s.changes + 2 } := by
  have hoffer := offer_of_acquire h.accepting hacquire hplace
  have hr : r < s.shared.pool.capacity := lt_capacity_of_acquire hacquire
  have hrunning : (s.shared.offer a).running = true := by
    rw [hoffer]
    exact h.running
  have hpayload : (s.shared.offer a).slots.payload? r = some a := by
    rw [hoffer]
    exact (Slots.payload?_place hplace r).trans (if_pos ⟨rfl, h.size_eq ▸ hr⟩)
  have hcapacity : (s.shared.offer a).pool.capacity = s.shared.pool.capacity := by
    rw [hoffer]
    exact Pool.capacity_acquire hacquire
  rw [run?_append (run?_offer hi h.started h.accepting hacquire hplace)]
  exact run?_delivery h.worker hrunning (h.queuesOnly_offer hacquire hplace) hpayload
    (hcapacity.symm ▸ hr) (hcapacity.symm ▸ h.supported)

end EngineThreads

end EventLog
