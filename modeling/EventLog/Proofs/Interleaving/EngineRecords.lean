import EventLog.Proofs.Interleaving.EngineHandshake
import EventLog.Proofs.Interleaving.QueueRuns

/-!
# The records of an engine under threads

The threads of an engine are threads on its pool and on its queue.  A record that a producer
acquired goes with the exchange of the tail from the producer to the queue, with a pop from the
queue to the consumer, and back to the pool when the consumer releases it; so the queue counts as
one more thread that has records.

Main results:

- `EngineThreads.records_acquire`, `EngineThreads.records_construct` and
  `EngineThreads.records_push`: steps of a producer with a record.
- `EngineThreads.records_pop` and `EngineThreads.records_release`: steps of the consumer with a
  record.
- `EngineThreads.Records.apart`: what a producer has, nobody else has.
-/

namespace EventLog

namespace EngineThreads

open PoolThreads (Shares exists_perm_of_getElem?)
open Queue (Carries content)

variable {α : Type}

/-! ## Threads on the pool and on the queue -/

/-- What a producer does with the pool. -/
def ProducerPhase.activity : ProducerPhase α → PoolThreads.Activity
  | .acquire _ phase => .acquiring phase
  | _ => .idle

/-- The record that a producer has. -/
def ProducerPhase.holds : ProducerPhase α → List Nat
  | .construct _ index => [index]
  | .push _ phase => (QueueThreads.waiting? phase).toList
  | _ => []

/-- A producer as a thread on the pool. -/
def Producer.view (p : Producer α) : PoolThreads.Worker :=
  { activity := p.phase.activity, holds := p.phase.holds, readAt := p.readAt }

/-- The push that a producer is in. -/
def ProducerPhase.push? : ProducerPhase α → Option Queue.PushPhase
  | .push _ phase => some phase
  | _ => none

/-- The pushes of all producers. -/
def State.pushes (s : State α) (i : Nat) : Option Queue.PushPhase :=
  (s.producers[i]?).bind fun p => p.phase.push?

/-- A consumer as a thread on the pool. -/
def ConsumerPhase.view : ConsumerPhase → PoolThreads.Worker
  | .handle index => { holds := [index] }
  | .countWritten index => { holds := [index] }
  | .release phase => { activity := .releasing phase }
  | _ => {}

/-- The pop that a consumer is in. -/
def ConsumerPhase.pop? : ConsumerPhase → Option Queue.PopPhase
  | .pop phase => some phase
  | _ => none

/-- All who have records: the queue, the consumer and the producers. -/
def State.holders (s : State α) (c : ConsumerPhase) (chain : List Address) :
    List PoolThreads.Worker :=
  { holds := content s.shared.queue.stub chain } :: c.view ::
    s.producers.toList.map Producer.view

/-- Every record is free or with one holder, and the queue is in order. -/
structure Records (s : State α) (c : ConsumerPhase) (first : UInt32) (capacity : Nat)
    (free : List Nat) (chain : List Address) : Prop where
  shares : Shares s.shared.pool first s.changes capacity free (s.holders c chain)
  carries : Carries s.shared.queue s.shared.links s.pushes c.pop? chain
  stub_eq : s.shared.queue.stub = capacity

variable {s t : State α} {c c' : ConsumerPhase} {first : UInt32} {capacity i n : Nat}
  {free : List Nat} {chain : List Address} {p p' : Producer α}

/-- A thread that is in no call has what it holds. -/
theorem records_eq_holds (holds : List Nat) (readAt : Nat) :
    PoolThreads.Worker.records { holds, readAt } = holds := by
  simp [PoolThreads.Worker.records, PoolThreads.Activity.taken, PoolThreads.Activity.returning]

/-- In the beginning all records are free. -/
theorem records_new {drains : Bool} {todo : Array (List α)}
    (hnew : State.new capacity drains todo = .ok s) :
    Records s .exhausted s.shared.pool.head.version capacity (List.range capacity) [capacity] := by
  have hidle : ∀ {w}, w ∈ s.producers.toList → w.phase = .idle := phase_eq_of_new hnew
  rcases eq_of_new hnew with ⟨pool, hpool, hs⟩
  rcases Pool.isStack_new hpool with ⟨hstack, hcapacity⟩
  have hshared : s.shared = { pool, queue := .new capacity, links := .blank (capacity + 1),
                              slots := .blank capacity } := by rw [hs]
  have hchanges : s.changes = 0 := by rw [hs]
  have hrecords : ∀ w ∈ s.holders .exhausted [capacity],
      w.records = [] ∧ w.activity = .idle := by
    intro w hw
    rcases List.mem_cons.1 hw with rfl | hw
    · simp [hshared, content, Queue.new, PoolThreads.Worker.records, PoolThreads.Activity.taken,
        PoolThreads.Activity.returning]
    · rcases List.mem_cons.1 hw with rfl | hw
      · exact ⟨rfl, rfl⟩
      · rcases List.mem_map.1 hw with ⟨p, hp, rfl⟩
        simp [Producer.view, hidle hp, ProducerPhase.activity, ProducerPhase.holds,
          PoolThreads.Worker.records, PoolThreads.Activity.taken, PoolThreads.Activity.returning]
  refine ⟨⟨?_, ?_, ?_, ?_, ?_, ?_, ?_⟩, ?_, by rw [hshared]; rfl⟩
  · rw [hshared]
    exact hstack.threaded
  · rw [hshared]
    exact hcapacity
  · rw [← hcapacity]
    exact hstack.supported
  · rw [List.flatMap_eq_nil_iff.2 fun w hw => (hrecords w hw).1, List.append_nil]
  · simp [hchanges]
  · rw [List.sum_eq_zero, Int.add_zero, hshared]
    · exact hstack.balance
    · intro x hx
      rcases List.mem_map.1 hx with ⟨w, hw, rfl⟩
      rw [(hrecords w hw).2]
      rfl
  · intro w hw
    rw [(hrecords w hw).2]
    trivial
  · have hpushes : s.pushes = fun _ => none := by
      funext i
      rw [State.pushes]
      cases hi : s.producers[i]? with
      | none => rfl
      | some p => simp [hidle (Array.mem_toList_iff.2 (Array.mem_of_getElem? hi)),
          ProducerPhase.push?]
    rw [hpushes, hshared]
    refine Queue.carries_new (by simp [Links.blank, Links.size]) ?_
    simp [Links.blank, Links.get]

/-! ## One producer among all -/

/-- The pushes after one producer moved. -/
theorem pushes_setProducer (hi : s.producers[i]? = some p)
    (hproducers : t.producers = s.producers.setIfInBounds i p') :
    t.pushes = Function.update s.pushes i p'.phase.push? := by
  funext j
  by_cases hji : j = i
  · subst hji
    rw [Function.update_self, State.pushes,
      (getElem?_setProducer hi hproducers).2 (Or.inl ⟨rfl, rfl⟩)]
    rfl
  · rw [Function.update_of_ne hji, State.pushes, State.pushes, hproducers,
      Array.getElem?_setIfInBounds_ne (Ne.symm hji)]

/-- One producer in front of all others who have records. -/
theorem exists_views (hi : s.producers[i]? = some p) :
    ∃ others, (∀ a b, (a :: b :: s.producers.toList.map Producer.view).Perm
      (p.view :: a :: b :: others)) ∧
      ∀ (p' : Producer α) a b, (p'.view :: a :: b :: others).Perm
        (a :: b :: (s.producers.setIfInBounds i p').toList.map Producer.view) := by
  rcases exists_perm_of_getElem? hi with ⟨others, hperm, hset⟩
  have hfront : ∀ (a b w : PoolThreads.Worker) (rest : List PoolThreads.Worker),
      (w :: a :: b :: rest).Perm (a :: b :: w :: rest) := fun a b w rest =>
    (List.Perm.swap a w (b :: rest)).trans ((List.Perm.swap b w rest).cons a)
  refine ⟨others.map Producer.view, fun a b => ?_, fun p' a b => ?_⟩
  · exact (((hperm.map Producer.view).cons b).cons a).trans (hfront a b _ _).symm
  · exact (hfront a b _ _).trans (((hset p').map Producer.view).symm.cons b |>.cons a)

/-- The producer has no record and has not read the head. -/
def ProducerPhase.isEmptyHanded : ProducerPhase α → Bool
  | .acquire _ .readHead => true
  | .acquire .. => false
  | .construct .. => false
  | .push .. => false
  | _ => true

/-- Such a producer is in no push and knows nothing of the pool. -/
theorem push?_of_isEmptyHanded {phase : ProducerPhase α} (h : phase.isEmptyHanded = true) :
    phase.push? = none := by
  cases phase <;> first | rfl | cases h

theorem view_of_isEmptyHanded (h : p.phase.isEmptyHanded = true) :
    p.view.records = [] ∧ p.view.activity.uncounted = 0 ∧
      ∀ pool first changes, p.view.activity.Knows pool first changes p.view.readAt := by
  rcases p with ⟨phase, todo, readAt⟩
  cases phase with
  | acquire a phase =>
      cases phase with
      | readHead => exact ⟨rfl, rfl, fun _ _ _ => trivial⟩
      | _ => cases h
  | construct a index => cases h
  | push a phase => cases h
  | _ => exact ⟨rfl, rfl, fun _ _ _ => trivial⟩

/-- A producer without a record moves on. -/
theorem Records.producer (h : Records s c first capacity free chain)
    (hi : s.producers[i]? = some p) (hproducers : t.producers = s.producers.setIfInBounds i p')
    (hpool : t.shared.pool = s.shared.pool) (hchanges : t.changes = s.changes)
    (hqueue : t.shared.queue = s.shared.queue) (hlinks : t.shared.links = s.shared.links)
    (hempty : p.phase.isEmptyHanded = true) (hempty' : p'.phase.isEmptyHanded = true) :
    Records t c first capacity free chain where
  shares := by
    rcases exists_views hi with ⟨others, hviews, hset⟩
    rcases view_of_isEmptyHanded hempty with ⟨hrecords, hcount, -⟩
    rcases view_of_isEmptyHanded hempty' with ⟨hrecords', hcount', hknows⟩
    have hshares := (h.shares.perm (hviews _ _)).setHead (by rw [hrecords, hrecords'])
      (hcount'.trans hcount.symm) (hknows _ _ _)
    rw [State.holders, hproducers, hpool, hchanges, hqueue]
    exact hshares.perm (hset p' _ _)
  carries := by
    have hpushes : t.pushes = s.pushes := by
      have hself : s.pushes i = none := by
        rw [State.pushes, hi]
        exact push?_of_isEmptyHanded hempty
      rw [pushes_setProducer hi hproducers, push?_of_isEmptyHanded hempty', ← hself,
        Function.update_eq_self]
    rw [hqueue, hlinks, hpushes]
    exact h.carries
  stub_eq := by rw [hqueue, h.stub_eq]

/-- No record is with two producers. -/
theorem Records.eq_of_mem (h : Records s c first capacity free chain) {j : Nat} {w : Producer α}
    (hi : s.producers[i]? = some p) (hj : s.producers[j]? = some w) (hn : n ∈ p.view.records)
    (hn' : n ∈ w.view.records) : i = j := by
  have hholders := (List.nodup_append.1 h.shares.nodup).2.1
  rw [State.holders, List.flatMap_cons, List.flatMap_cons] at hholders
  have hproducers := (List.nodup_append.1 (List.nodup_append.1 hholders).2.1).2.1
  rw [List.flatMap_map] at hproducers
  exact PoolThreads.index_eq_of_nodup_flatMap hproducers hi hj hn hn'

/-- What the consumer has nobody else has. -/
theorem Records.apart_consumer (h : Records s c first capacity free chain)
    (hn : n ∈ c.view.records) : n ∉ content s.shared.queue.stub chain ∧
      ∀ (j : Nat) (w : Producer α), s.producers[j]? = some w → n ∉ w.view.records := by
  have hholders := (List.nodup_append.1 h.shares.nodup).2.1
  rw [State.holders, List.flatMap_cons, List.flatMap_cons] at hholders
  rcases List.nodup_append.1 hholders with ⟨-, hrest, hqueue⟩
  refine ⟨fun hmem => ?_, fun j w hw hmem => ?_⟩
  · refine hqueue n ?_ n (List.mem_append_left _ hn) rfl
    rw [records_eq_holds]
    exact hmem
  · refine (List.nodup_append.1 hrest).2.2 n hn n (List.mem_flatMap.2 ⟨w.view, ?_, hmem⟩) rfl
    exact List.mem_map.2 ⟨w, Array.mem_toList_iff.2 (Array.mem_of_getElem? hw), rfl⟩

/-- What a producer has nobody else has. -/
theorem Records.apart (h : Records s c first capacity free chain)
    (hi : s.producers[i]? = some p) (hn : n ∈ p.view.records) :
    n < capacity ∧ n ∉ content s.shared.queue.stub chain ∧ n ∉ c.view.records ∧
      ∀ (j : Nat) (w : Producer α), j ≠ i → s.producers[j]? = some w → n ∉ w.view.records := by
  rcases exists_views hi with ⟨views, hviews, -⟩
  have hshares := h.shares.perm (hviews _ _)
  have hnodup := (List.nodup_append.1 hshares.nodup).2.1
  rw [List.flatMap_cons, List.flatMap_cons, records_eq_holds] at hnodup
  have hapart := (List.nodup_append.1 hnodup).2.2 n hn
  refine ⟨?_, ?_, ?_, ?_⟩
  · exact hshares.lt_capacity (Or.inr (List.mem_flatMap.2 ⟨_, List.mem_cons_self, hn⟩))
  · intro hmem
    exact hapart n (List.mem_append_left _ hmem) rfl
  · intro hmem
    exact (h.apart_consumer hmem).2 i p hi hn
  · intro j w hj hw hmem
    exact hj (h.eq_of_mem hw hi hmem hn)

/-- A producer with a push has the record or has handed it to the queue. -/
theorem Records.node_cases (h : Records s c first capacity free chain)
    {push : Queue.PushPhase} (hpush : s.pushes i = some push) (hnode : push.node? = some n) :
    (∃ p : Producer α, s.producers[i]? = some p ∧ n ∈ p.view.records) ∨
      n ∈ content s.shared.queue.stub chain := by
  rcases Option.bind_eq_some_iff.1 hpush with ⟨p, hi, hphase⟩
  have hholds : QueueThreads.waiting? push = some n → n ∈ p.view.records := by
    intro hwaiting
    refine List.mem_append_right _ ?_
    cases hp : p.phase with
    | push a phase =>
        rw [hp] at hphase
        obtain rfl : phase = push := Option.some.inj hphase
        simp [Producer.view, hp, ProducerPhase.holds, hwaiting]
    | _ =>
        rw [hp] at hphase
        cases hphase
  cases push with
  | clear node => exact Or.inl ⟨p, hi, hholds hnode⟩
  | exchange node => exact Or.inl ⟨p, hi, hholds hnode⟩
  | publish node former =>
      obtain rfl : node = n := Option.some.inj hnode
      have hafter : Queue.after? chain former = some node :=
        (h.carries.path.fits (some i) _ hpush).1
      have hne : node ≠ s.shared.queue.stub := fun heq =>
        h.carries.node?_ne_stub i _ hpush (congrArg some heq)
      exact Or.inr (List.mem_filter.2 ⟨(Queue.mem_of_after? hafter).2, by simpa using hne⟩)
  | done => cases hnode

/-! ## Steps of a producer -/

/-- A producer after a step of its acquisition, as a thread on the pool. -/
theorem view_afterAcquire {a : α} {phase : Pool.AcquirePhase} (hphase : p.phase = .acquire a phase)
    (next : Pool.AcquirePhase) (changes : Nat) :
    (p.afterAcquire a next changes).view = (p.view.afterAcquire next).noting changes := by
  rcases next with _ | seen | ⟨seen, link⟩ | index | (_ | index) <;>
    simp [Producer.view, Producer.afterAcquire, hphase, ProducerPhase.afterAcquire,
      ProducerPhase.activity, ProducerPhase.holds, PoolThreads.Worker.afterAcquire,
      PoolThreads.Worker.noting,
      PoolThreads.readsHead]

theorem push?_afterAcquire (a : α) (next : Pool.AcquirePhase) (changes : Nat) :
    (p.afterAcquire a next changes).phase.push? = none := by
  rw [Producer.afterAcquire]
  rcases afterAcquire_cases a next with ⟨index, hnext⟩ | hnext | hnext <;> rw [hnext] <;>
    rfl

/-- The push of one producer. -/
theorem pushes_of_producer (hi : s.producers[i]? = some p) : s.pushes i = p.phase.push? := by
  rw [State.pushes, hi, Option.bind_some]

/-- A step of an acquisition. -/
theorem records_acquire (h : Records s c first capacity free chain)
    (hi : s.producers[i]? = some p) {a : α} {phase : Pool.AcquirePhase}
    (hphase : p.phase = .acquire a phase) (htime : p.view.IsTimely s.changes) (weak : Bool) :
    let next := phase.step weak s.shared.pool
    ∃ free', Records ((s.setPool next.2).setProducer i
      (p.afterAcquire a next.1 (s.setPool next.2).changes)) c first capacity free' chain := by
  rcases exists_views hi with ⟨others, hviews, hset⟩
  have hactivity : p.view.activity = .acquiring phase := by
    simp [Producer.view, hphase, ProducerPhase.activity]
  rcases PoolThreads.shares_acquire (h.shares.perm (hviews _ _)) hactivity htime weak with
    ⟨free', hshares⟩
  refine ⟨free', ?_, ?_, h.stub_eq⟩
  · rw [← view_afterAcquire hphase] at hshares
    exact hshares.perm (hset _ _ _)
  · have hself : s.pushes i = none := by
      rw [pushes_of_producer hi, hphase]
      rfl
    have hpushes := pushes_setProducer (t :=
      (s.setPool (phase.step weak s.shared.pool).2).setProducer i (p.afterAcquire a
        (phase.step weak s.shared.pool).1 (s.setPool (phase.step weak s.shared.pool).2).changes))
      hi rfl
    rw [push?_afterAcquire, ← hself, Function.update_eq_self] at hpushes
    rw [hpushes]
    exact h.carries

/-- A producer that filled its record begins to push it. -/
theorem records_construct (h : Records s c first capacity free chain)
    (hi : s.producers[i]? = some p) {a : α} (hphase : p.phase = .construct a n)
    (hproducers : t.producers =
      s.producers.setIfInBounds i { p with phase := .push a (.clear n) })
    (hpool : t.shared.pool = s.shared.pool) (hchanges : t.changes = s.changes)
    (hqueue : t.shared.queue = s.shared.queue) (hlinks : t.shared.links = s.shared.links) :
    Records t c first capacity free chain := by
  have hholds : n ∈ p.view.records := by
    simp [PoolThreads.Worker.records, Producer.view, hphase, ProducerPhase.holds]
  rcases h.apart hi hholds with ⟨hlt, hcontent, -, hothers⟩
  have hself : s.pushes i = none := by
    rw [pushes_of_producer hi, hphase]
    rfl
  have hstub : n ≠ s.shared.queue.stub := by
    rw [h.stub_eq]
    exact Nat.ne_of_lt hlt
  have hchain : n ∉ chain := fun hmem =>
    hcontent (List.mem_filter.2 ⟨hmem, by simpa using hstub⟩)
  have hsize : n < s.shared.links.size := by
    have hlinks := h.carries.stub_lt
    rw [h.stub_eq] at hlinks
    exact Nat.lt_trans hlt hlinks
  have hcarries := h.carries.begin hself hstub hchain hsize (by
    intro j push hj hnode
    rcases h.node_cases hj hnode with ⟨w, hw, hmem⟩ | hmem
    · have hji : j ≠ i := by
        rintro rfl
        rw [hself] at hj
        cases hj
      exact hothers j w hji hw hmem
    · exact hcontent hmem)
  refine ⟨?_, ?_, by rw [hqueue, h.stub_eq]⟩
  · rcases exists_views hi with ⟨others, hviews, hset⟩
    have hview : p.view = Producer.view { p with phase := .push a (.clear n) } := by
      simp [Producer.view, hphase, ProducerPhase.activity, ProducerPhase.holds,
        QueueThreads.waiting?]
    have hshares := h.shares.perm (hviews _ _)
    rw [hview] at hshares
    rw [State.holders, hproducers, hpool, hchanges, hqueue]
    exact hshares.perm (hset _ _ _)
  · rw [hqueue, hlinks, pushes_setProducer hi hproducers]
    exact hcarries

theorem holds_afterPush (a : α) (next : Queue.PushPhase) :
    (ProducerPhase.afterPush a next).holds =
      ((QueueThreads.openPush next).bind QueueThreads.waiting?).toList := by
  cases next <;> rfl

theorem push?_afterPush (a : α) (next : Queue.PushPhase) :
    (ProducerPhase.afterPush a next).push? = QueueThreads.openPush next := by
  cases next <;> rfl

theorem activity_afterPush (a : α) (next : Queue.PushPhase) :
    (ProducerPhase.afterPush a next).activity = .idle := by
  cases next <;> rfl

/-- A step of a push. -/
theorem records_push (h : Records s c first capacity free chain)
    (hi : s.producers[i]? = some p) {a : α} {phase : Queue.PushPhase}
    (hphase : p.phase = .push a phase) :
    let next := phase.step s.shared.queue s.shared.links
    Records ((s.setQueue next.2.1 next.2.2).setProducer i { p with phase := .afterPush a next.1 })
      c first capacity free (phase.extend chain) := by
  have hself : s.pushes i = some phase := by
    rw [pushes_of_producer hi, hphase]
    rfl
  have hcarries := h.carries.produce hself
  have hcontent := QueueThreads.content_extend h.carries hself
  have hwaiting := QueueThreads.waiting?_step s.shared.queue s.shared.links phase
  have hstub := Queue.PushPhase.stub_step s.shared.queue s.shared.links phase
  dsimp only
  generalize phase.step s.shared.queue s.shared.links = next at *
  refine ⟨?_, ?_, hstub.trans h.stub_eq⟩
  · rcases exists_views hi with ⟨others, hviews, hset⟩
    have hold : p.view = { holds := (QueueThreads.waiting? phase).toList, readAt := p.readAt } := by
      simp [Producer.view, hphase, ProducerPhase.activity, ProducerPhase.holds]
    have hnew : Producer.view { p with phase := .afterPush a next.1 } =
        { holds := (ProducerPhase.afterPush a next.1).holds, readAt := p.readAt } := by
      simp [Producer.view, activity_afterPush]
    refine Shares.perm ?_ (hset _ _ _)
    refine (h.shares.perm (hviews _ _)).handOver ?_ ?_ ?_ trivial
    · rw [hold, hnew]
      simp only [records_eq_holds, holds_afterPush, State.setProducer, State.setQueue, hstub,
        hcontent, hwaiting]
      refine List.perm_append_comm.trans ?_
      rw [List.append_assoc]
      exact List.perm_append_comm
    · rw [hold, hnew]
    · rw [hnew]
      trivial
  · rw [pushes_setProducer (t := (s.setQueue next.2.1 next.2.2).setProducer i
      { p with phase := .afterPush a next.1 }) hi rfl, push?_afterPush]
    exact hcarries

/-! ## Steps of the consumer -/

/-- Only pool, queue and producers matter. -/
theorem Records.congr (h : Records s c first capacity free chain)
    (hpool : t.shared.pool = s.shared.pool) (hchanges : t.changes = s.changes)
    (hqueue : t.shared.queue = s.shared.queue) (hlinks : t.shared.links = s.shared.links)
    (hproducers : t.producers = s.producers) : Records t c first capacity free chain where
  shares := by
    rw [State.holders, hpool, hchanges, hqueue, hproducers]
    exact h.shares
  carries := by
    have hpushes : t.pushes = s.pushes := by
      funext j
      rw [State.pushes, State.pushes, hproducers]
    rw [hqueue, hlinks, hpushes]
    exact h.carries
  stub_eq := by rw [hqueue, h.stub_eq]

/-- A consumer that is about something else with the same record. -/
theorem Records.consumer (h : Records s c first capacity free chain)
    (hrecords : c'.view.records.Perm c.view.records)
    (hcount : c'.view.activity.uncounted = c.view.activity.uncounted)
    (hknows : c'.view.activity.Knows s.shared.pool first s.changes c'.view.readAt)
    (hpop : c.pop?.bind (Queue.PopPhase.ownPush s.shared.queue.stub) = none)
    (hpop' : c'.pop?.bind (Queue.PopPhase.ownPush s.shared.queue.stub) = none)
    (hfits : ∀ phase, c'.pop? = some phase → phase.Fits s.shared.queue) :
    Records s c' first capacity free chain where
  shares := by
    have hshares := (h.shares.perm (List.Perm.swap _ _ _)).setHead hrecords hcount hknows
    exact hshares.perm (List.Perm.swap _ _ _)
  carries := h.carries.setPop hpop hpop' hfits
  stub_eq := h.stub_eq

/-- Where a consumer stands after a step of its pop. -/
theorem afterPop_cases (next : Queue.PopPhase) :
    (∃ index, next = .done (some index)) ∨ next = .done none ∨
      ConsumerPhase.afterPop next = .pop next ∧ next.open? = some next ∧ next.popped? = none := by
  cases next with
  | done node =>
      cases node with
      | none => exact Or.inr (Or.inl rfl)
      | some index => exact Or.inl ⟨index, rfl⟩
  | _ => exact Or.inr (Or.inr ⟨rfl, rfl, rfl⟩)

theorem view_afterPop (next : Queue.PopPhase) :
    (ConsumerPhase.afterPop next).view = { holds := next.popped?.toList } := by
  rcases afterPop_cases next with ⟨index, rfl⟩ | rfl | ⟨hpop, -, hpopped⟩
  · rfl
  · rfl
  · rw [hpop, hpopped]
    rfl

theorem pop?_afterPop (next : Queue.PopPhase) :
    (ConsumerPhase.afterPop next).pop? = next.open? := by
  rcases afterPop_cases next with ⟨index, rfl⟩ | rfl | ⟨hpop, hopen, -⟩
  · rfl
  · rfl
  · rw [hpop, hopen]
    rfl

/-- A step of a pop. -/
theorem records_pop {phase : Queue.PopPhase}
    (h : Records s (.pop phase) first capacity free chain) :
    let next := phase.step s.shared.queue s.shared.links
    ∃ chain', Records (s.setQueue next.2.1 next.2.2) (.afterPop next.1) first capacity free chain' ∧
      content s.shared.queue.stub chain =
        next.1.popped?.toList ++ content s.shared.queue.stub chain' ∧
      (next.1 = .done none → content s.shared.queue.stub chain = []) := by
  have hcarries : Carries s.shared.queue s.shared.links s.pushes (some phase) chain := h.carries
  rcases hcarries.consume with ⟨⟨chain', hnext, hcontent⟩, hempty⟩
  have hstub := Queue.PopPhase.stub_step s.shared.queue s.shared.links phase
  dsimp only
  generalize phase.step s.shared.queue s.shared.links = next at *
  refine ⟨chain', ⟨?_, ?_, hstub.trans h.stub_eq⟩, hcontent, hempty⟩
  · refine Shares.handOver (v := { holds := content s.shared.queue.stub chain })
      (w := ConsumerPhase.view (.pop phase)) h.shares ?_ ?_ trivial ?_
    · rw [view_afterPop]
      simp only [records_eq_holds, ConsumerPhase.view, State.setQueue, hstub, hcontent,
        List.append_nil]
      exact List.perm_append_comm
    · rw [view_afterPop]
      rfl
    · rw [view_afterPop]
      trivial
  · rw [pop?_afterPop]
    exact hnext

/-- A consumer after a step of its release, as a thread on the pool. -/
theorem view_afterRelease {phase : Pool.ReleasePhase} {following : ConsumerPhase}
    (hfollowing : following.view = {}) (next : Pool.ReleasePhase) (changes : Nat) :
    ∃ readAt, ((ConsumerPhase.view (.release phase)).afterRelease next).noting changes =
      { (ConsumerPhase.afterRelease following next).view with readAt } := by
  cases next with
  | done => exact ⟨0, by rw [ConsumerPhase.afterRelease, hfollowing]; rfl⟩
  | _ => exact ⟨_, rfl⟩

/-- A release does not depend on when it read the head. -/
theorem knows_afterRelease {q : Pool} {changes readAt : Nat} {following : ConsumerPhase}
    (hfollowing : following.view = {}) (next : Pool.ReleasePhase)
    (h : (ConsumerPhase.afterRelease following next).view.activity.Knows q first changes readAt) :
    (ConsumerPhase.afterRelease following next).view.activity.Knows q first changes
      (ConsumerPhase.afterRelease following next).view.readAt := by
  cases next with
  | done =>
      rw [ConsumerPhase.afterRelease, hfollowing]
      trivial
  | _ => exact h

/-- A step of a release. -/
theorem records_release {phase : Pool.ReleasePhase}
    (h : Records s (.release phase) first capacity free chain) {following : ConsumerPhase}
    (hfollowing : following.view = {})
    (hpop : following.pop? = none ∨ following.pop? = some .start) (weak : Bool) :
    let next := phase.step weak s.shared.pool
    ∃ free', Records (s.setPool next.2) (.afterRelease following next.1) first capacity free'
      chain := by
  have hshares := h.shares.perm (List.Perm.swap _ _ _)
  rcases PoolThreads.shares_release hshares rfl weak with ⟨free', hnext⟩
  dsimp only
  generalize phase.step weak s.shared.pool = next at *
  rcases view_afterRelease hfollowing next.1
    (PoolThreads.changesAfter s.changes s.shared.pool next.2) with ⟨readAt, hview⟩
  rw [hview] at hnext
  refine ⟨free', ?_, ?_, h.stub_eq⟩
  · refine Shares.perm ?_ (List.Perm.swap _ _ _)
    have hknows := hnext.knows _ List.mem_cons_self
    exact hnext.setHead (List.Perm.refl _) rfl (knows_afterRelease hfollowing next.1 hknows)
  · have hcarries : Carries s.shared.queue s.shared.links s.pushes none chain := h.carries
    have hpop' : (ConsumerPhase.afterRelease following next.1).pop? = none ∨
        (ConsumerPhase.afterRelease following next.1).pop? = some .start := by
      cases next.1 with
      | done => exact hpop
      | _ => exact Or.inl rfl
    rcases hpop' with hpop' | hpop'
    · rw [hpop']
      exact hcarries
    · rw [hpop']
      refine hcarries.setPop rfl rfl fun phase hphase => ?_
      cases hphase
      trivial

end EngineThreads

end EventLog
