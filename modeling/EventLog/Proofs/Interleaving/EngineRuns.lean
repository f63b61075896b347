import EventLog.Proofs.Interleaving.EngineCalls
import EventLog.Proofs.Interleaving.EngineSteps

/-!
# Runs of threads on an engine

As for a pool alone the runs are those in which a producer that compares the head finds fewer
changes of it than there are versions since it read it.  That is every run in which nobody comes
between a producer's look at the head and its exchange, and, as calls alone change the head and
each of them twice at most, every run of fewer calls than half of the versions.

No other runs are reliable in general.  While one producer stands between its look at the head and
its exchange, so many calls can be made that the head comes round to the version that it saw.  Its
exchange then succeeds although the record that it links the head to is with another producer.

Main results:

- `EngineThreads.inTime_of_undisturbed`: a run whose acquisitions nobody disturbs is in time.
- `EngineThreads.inTime_of_calls`: so is every run of fewer calls than half of the versions.
- `EngineThreads.isReliable_run`: what every run in time leads to.
- `EngineThreads.not_isReliable_lapped`: a run that is not in time, and loses two events.
-/

namespace EventLog

namespace EngineThreads

open QueueThreads (entriesOf)
open Queue (content)

variable {α : Type} {s t : State α} {drains : Bool} {first : UInt32} {capacity i : Nat}
  {p p' : Producer α} {todo : Array (List α)} {w : Account α}

/-! ## Runs in time -/

/-- Whenever a producer compares the head, fewer changes of it than there are versions lie between
that and its last read of the head. -/
def InTime : State α → List (Thread × Chance) → Prop
  | _, [] => True
  | s, (thread, chance) :: schedule =>
    (∀ (i : Nat) (p : Producer α), thread = .producer i → s.producers[i]? = some p →
      p.view.IsTimely s.changes) ∧
      match step? s thread chance with
      | none => True
      | some t => InTime t schedule

/-! ## Acquisitions that nobody disturbs -/

/-- It read the head and is not through with its exchange. -/
def ProducerPhase.hasSeen : ProducerPhase α → Bool
  | .acquire _ (.readLink _) => true
  | .acquire _ (.exchange ..) => true
  | _ => false

/-- Nobody else takes a step between a producer's look at the head and its exchange, as if that were
one step. -/
def Undisturbed : State α → List (Thread × Chance) → Prop
  | _, [] => True
  | s, (thread, chance) :: schedule =>
    (∀ (i : Nat) (p : Producer α), s.producers[i]? = some p → p.phase.hasSeen = true →
      thread = .producer i) ∧
      match step? s thread chance with
      | none => True
      | some t => Undisturbed t schedule

/-- The head is as every producer that is to exchange it saw it. -/
def State.IsAbreast (s : State α) : Prop :=
  ∀ (i : Nat) (p : Producer α), s.producers[i]? = some p → p.phase.hasSeen = true →
    p.readAt = s.changes

/-- A producer that compares the head read it before. -/
theorem hasSeen_of_comparesHead (h : p.view.activity.ComparesHead) : p.phase.hasSeen = true := by
  cases hphase : p.phase with
  | acquire a phase =>
      rw [Producer.view, hphase] at h
      cases phase with
      | exchange seen next => rfl
      | _ => cases h
  | _ =>
      rw [Producer.view, hphase] at h
      cases h

/-- Who goes on at once compares in time. -/
theorem State.IsAbreast.isTimely (h : s.IsAbreast) (hi : s.producers[i]? = some p) :
    p.view.IsTimely s.changes := by
  intro hcompares
  have hreadAt : p.readAt = s.changes := h i p hi (hasSeen_of_comparesHead hcompares)
  have hsize : 0 < UInt32.size := by decide
  change s.changes < p.readAt + UInt32.size
  omega

/-- A producer that goes on at once has seen the head as it is. -/
theorem readAt_afterAcquire {a : α} {phase : Pool.AcquirePhase} {changes : Nat}
    (h : (ProducerPhase.acquire a phase).hasSeen = true → p.readAt = changes) (weak : Bool)
    (pool : Pool) :
    let next := phase.step weak pool
    let changes' := PoolThreads.changesAfter changes pool next.2
    (p.afterAcquire a next.1 changes').phase.hasSeen = true →
      (p.afterAcquire a next.1 changes').readAt = changes' := by
  have hhead : ∀ seen changes', (p.afterAcquire a (.ofHead seen) changes').phase.hasSeen = true →
      (p.afterAcquire a (.ofHead seen) changes').readAt = changes' := by
    intro seen changes'
    rw [Pool.AcquirePhase.ofHead]
    split
    · intro hseen
      cases hseen
    · exact fun _ => rfl
  intro next changes' hseen
  cases phase with
  | readHead => exact hhead pool.head changes' hseen
  | readLink seen =>
      have hsame : changes' = changes := PoolThreads.changesAfter_of_eq rfl
      rw [hsame]
      exact h rfl
  | exchange seen link =>
      by_cases hsame : weak = false ∧ pool.head = seen
      · have hnext : next.1 = .count (Pool.AcquirePhase.top seen) := by
          simp [next, Pool.AcquirePhase.step, hsame]
        rw [hnext] at hseen
        cases hseen
      · have hnext : next.1 = .ofHead pool.head := by
          simp [next, Pool.AcquirePhase.step, hsame]
        rw [hnext] at hseen ⊢
        exact hhead pool.head changes' hseen
  | count index => cases hseen
  | done index => cases index <;> cases hseen

/-- What a step of a producer leaves of its look at the head. -/
theorem hasSeen_stepProducer {chance : Chance}
    (h : p.phase.hasSeen = true → p.readAt = s.changes)
    (hstep : stepProducer s i p chance = some t) :
    ∃ p', t.producers = s.producers.setIfInBounds i p' ∧
      (p'.phase.hasSeen = true → p'.readAt = t.changes) := by
  cases hphase : p.phase with
  | acquire a phase =>
      simp only [stepProducer, hphase] at hstep
      cases hstep
      rw [hphase] at h
      exact ⟨_, rfl, readAt_afterAcquire h chance.weak s.shared.pool⟩
  | push a phase =>
      simp only [stepProducer, hphase] at hstep
      cases hstep
      refine ⟨_, rfl, fun hseen => ?_⟩
      dsimp only at hseen
      unfold ProducerPhase.afterPush at hseen
      split at hseen <;> cases hseen
  | _ =>
      simp only [stepProducer, hphase] at hstep
      repeat' split at hstep
      all_goals cases hstep
      all_goals exact ⟨_, rfl, fun hseen => by cases hseen⟩

/-- The worker leaves the producers where they are. -/
theorem producers_stepWorker {chance : Chance} (hstep : stepWorker s chance = some t) :
    t.producers = s.producers := by
  cases hworker : s.worker with
  | consume draining phase =>
      rw [stepWorker, hworker] at hstep
      cases hstep
      exact (sameControl_stepDeliver s chance phase).producers
  | _ =>
      rw [stepWorker, hworker] at hstep
      cases hstep <;> rfl

/-- So does the thread that shuts down. -/
theorem producers_stepCloser {chance : Chance} (hstep : stepCloser s chance = some t) :
    t.producers = s.producers := by
  cases hcloser : s.closer with
  | drain phase =>
      rw [stepCloser, hcloser] at hstep
      cases hstep
      exact (sameControl_stepDeliver s chance phase).producers
  | discard phase =>
      rw [stepCloser, hcloser] at hstep
      cases hstep
      exact (sameControl_stepDiscard s chance phase).producers
  | _ =>
      simp only [stepCloser, hcloser] at hstep
      repeat' split at hstep
      all_goals cases hstep
      all_goals rfl

/-- If nobody comes between, every producer has seen the head as it is. -/
theorem isAbreast_step (h : s.IsAbreast) {thread : Thread} {chance : Chance}
    (halone : ∀ (i : Nat) (p : Producer α), s.producers[i]? = some p → p.phase.hasSeen = true →
      thread = .producer i)
    (hstep : step? s thread chance = some t) : t.IsAbreast := by
  cases thread with
  | producer i =>
      simp only [step?] at hstep
      split at hstep
      · cases hstep
      · rename_i p hi
        rcases hasSeen_stepProducer (h i p hi) hstep with ⟨p', hproducers, hp'⟩
        intro j v hv hseen
        rcases (getElem?_setProducer hi hproducers).1 hv with ⟨rfl, rfl⟩ | ⟨hji, hv⟩
        · exact hp' hseen
        · have hij := halone j v hv hseen
          cases hij
          exact absurd rfl hji
  | worker =>
      intro j v hv hseen
      rw [producers_stepWorker hstep] at hv
      cases halone j v hv hseen
  | closer =>
      intro j v hv hseen
      rw [producers_stepCloser hstep] at hv
      cases halone j v hv hseen

/-- A run whose acquisitions nobody disturbs is in time. -/
theorem inTime_of_undisturbed {schedule : List (Thread × Chance)} (h : s.IsAbreast)
    (halone : Undisturbed s schedule) : InTime s schedule := by
  induction schedule generalizing s with
  | nil => trivial
  | cons move schedule ih =>
      rcases move with ⟨thread, chance⟩
      rcases halone with ⟨halone, hrest⟩
      refine ⟨fun i p _ hi => h.isTimely hi, ?_⟩
      cases hstep : step? s thread chance with
      | none => trivial
      | some u =>
          rw [hstep] at hrest
          exact ih (isAbreast_step h halone hstep) hrest

/-- Nobody has seen the head of a new engine. -/
theorem isAbreast_new (hnew : State.new capacity drains todo = .ok s) : s.IsAbreast := by
  rcases eq_of_new hnew with ⟨pool, -, rfl⟩
  intro i p hi hseen
  dsimp only at hi
  rw [Array.getElem?_map] at hi
  rcases Option.map_eq_some_iff.1 hi with ⟨events, -, rfl⟩
  cases hseen

/-! ## Few calls -/

/-- A run keeps handshake and books. -/
theorem sound_run {schedule : List (Thread × Chance)} (h : Sound s drains first capacity todo w)
    (htime : InTime s schedule) (hrun : run? s schedule = some t) :
    ∃ w', Sound t drains first capacity todo w' := by
  induction schedule generalizing s w with
  | nil =>
      cases hrun
      exact ⟨w, h⟩
  | cons move schedule ih =>
      rcases move with ⟨thread, chance⟩
      rcases htime with ⟨htimely, hrest⟩
      rw [run?] at hrun
      cases hstep : step? s thread chance with
      | none =>
          rw [hstep] at hrun
          cases hrun
      | some u =>
          rw [hstep] at hrun hrest
          rcases sound_step h htimely hstep with ⟨w', hnext⟩
          exact ih hnext hrest hrun

/-- Every run is in time if the producers make so few calls that the versions suffice for all. -/
theorem inTime_of_calls (h : Sound s drains first capacity todo w)
    (hcalls : 2 * calls todo < UInt32.size) (schedule : List (Thread × Chance)) :
    InTime s schedule := by
  induction schedule generalizing s w with
  | nil => trivial
  | cons move schedule ih =>
      rcases move with ⟨thread, chance⟩
      have htimely : ∀ (i : Nat) (p : Producer α), thread = .producer i →
          s.producers[i]? = some p → p.view.IsTimely s.changes := by
        intro i p _ _ _
        have hchanges := h.books.changes_le
        omega
      refine ⟨htimely, ?_⟩
      cases hstep : step? s thread chance with
      | none => trivial
      | some u =>
          rcases sound_step h htimely hstep with ⟨w', hnext⟩
          exact ih hnext

/-! ## What every run leads to -/

/-- The shutdown returned and no producer is in a call. -/
structure State.IsOver (s : State α) : Prop where
  closer : s.closer = .returned
  idle : ∀ p ∈ s.producers.toList, p.phase = .idle

/-- Everything is accounted for and the engine is empty. -/
structure State.IsSettled (s : State α) (capacity : Nat) (drains : Bool)
    (todo : Array (List α)) : Prop where
  /-- Every call that was made was counted once. -/
  returned_eq : s.shared.stats.written + s.shared.stats.dropped = s.returned
  calls_eq : s.returned + (s.sum fun p => p.todo.length) = calls todo
  delivered_eq : s.delivered.length = s.shared.stats.written
  isEmpty : s.shared.queue.isEmpty s.shared.links = true
  free : s.shared.pool.freeList.Perm (List.range capacity)
  available : s.shared.pool.available = capacity
  unoccupied : ∀ n, s.shared.slots.isOccupied n = false
  /-- A worker that was to deliver what is queued delivered all that was accepted. -/
  drained : s.worker ≠ .absent → drains = true →
    s.shared.stats.written = s.shared.stats.enqueued

/-- What producers and the thread that shuts down can rely on. -/
structure State.IsReliable (s : State α) (capacity : Nat) (drains : Bool)
    (todo : Array (List α)) : Prop where
  /-- Nothing is delivered after the shutdown returned. -/
  silent : s.closer = .returned → ∀ later t, run? s later = some t → t.delivered = s.delivered
  /-- Of each producer's calls some were delivered, each of them once and in order. -/
  ordered : ∃ order : List (Nat × α), s.delivered.reverse = order.map Prod.snd ∧
    ∀ i, (entriesOf i order).Sublist (todo[i]?.getD [])
  settled : s.IsOver → s.IsSettled capacity drains todo

/-- In the end nothing waits, and nobody consumes. -/
theorem Sound.eq_nil_of_isOver (h : Sound s drains first capacity todo w) (hover : s.IsOver) :
    w.pending = [] ∧ s.consumer = .exhausted ∧ content s.shared.queue.stub w.chain = [] := by
  have hpending := h.emptied (by rw [hover.closer]; decide)
  have hconsumer : s.consumer = .exhausted := by
    rw [State.consumer, hover.closer]
    rcases h.control.gone (by rw [hover.closer]; decide) with hgone | hgone <;> rw [hgone] <;> rfl
  have hunhandled := h.books.pending_eq_nil_iff.1 hpending
  rw [hconsumer] at hunhandled
  exact ⟨hpending, hconsumer, hunhandled⟩

/-- Idle producers have nothing to count. -/
theorem sum_of_isOver (hover : s.IsOver) :
    (s.sum fun p => p.phase.unnoted) = 0 ∧ (s.sum fun p => p.phase.leaving) = 0 ∧
      s.sum Producer.owed = s.sum fun p => p.todo.length := by
  refine ⟨?_, ?_, ?_⟩
  · refine List.sum_eq_zero fun x hx => ?_
    rcases List.mem_map.1 hx with ⟨p, hp, rfl⟩
    rw [hover.idle p hp]
    rfl
  · refine List.sum_eq_zero fun x hx => ?_
    rcases List.mem_map.1 hx with ⟨p, hp, rfl⟩
    rw [hover.idle p hp]
    rfl
  · refine congrArg List.sum (List.map_congr_left fun p hp => ?_)
    rw [Producer.owed, hover.idle p hp]
    exact Nat.zero_add _

/-- In the end all records are on the stack. -/
theorem Sound.free_of_isOver (h : Sound s drains first capacity todo w) (hover : s.IsOver) :
    w.free.Perm (List.range capacity) ∧ s.shared.pool.IsStack w.free := by
  rcases h.eq_nil_of_isOver hover with ⟨-, hconsumer, hcontent⟩
  have hshares := h.books.records.shares
  have hquiet : ∀ v ∈ s.holders s.consumer w.chain, v.records = [] ∧ v.activity = .idle := by
    rw [State.holders, hcontent, hconsumer]
    intro v hv
    rcases List.mem_cons.1 hv with rfl | hv
    · exact ⟨rfl, rfl⟩
    · rcases List.mem_cons.1 hv with rfl | hv
      · exact ⟨rfl, rfl⟩
      · rcases List.mem_map.1 hv with ⟨p, hp, rfl⟩
        rw [Producer.view, hover.idle p hp]
        exact ⟨rfl, rfl⟩
  have hplaces := hshares.places
  rw [List.flatMap_eq_nil_iff.2 fun v hv => (hquiet v hv).1, List.append_nil] at hplaces
  exact ⟨hplaces, hshares.isStack_of_quiet fun v hv => (hquiet v hv).2⟩

/-- In the end everything is accounted for. -/
theorem Sound.isSettled (h : Sound s drains first capacity todo w) (hover : s.IsOver) :
    s.IsSettled capacity drains todo := by
  rcases h.eq_nil_of_isOver hover with ⟨hpending, hconsumer, hcontent⟩
  rcases h.free_of_isOver hover with ⟨hfree, hstack⟩
  rcases sum_of_isOver hover with ⟨hunnoted, hleaving, howed⟩
  have hdiscards : s.closer.discards = false := by rw [hover.closer]; rfl
  have hcounts := h.books.counts
  rw [hconsumer, hdiscards] at hcounts
  have hwritten : s.delivered.length = s.shared.stats.written := hcounts.written_eq
  have henqueued := hcounts.enqueued_eq
  have hdropped : s.shared.stats.enqueued + s.shared.stats.dropped =
      s.returned + (s.sum fun p => p.phase.leaving) + w.lapsed.length := hcounts.dropped_eq
  have horder := congrArg List.length h.books.events.order_eq
  rw [hpending, List.append_nil, List.length_map, List.length_append, List.length_reverse] at horder
  exact {
    returned_eq := by omega
    calls_eq := by rw [← howed, hcounts.total_eq]
    delivered_eq := hwritten
    isEmpty := h.books.records.carries.isEmpty_of_content hcontent
    free := by
      rw [Pool.freeList_of_isStack hstack]
      exact hfree
    available := by
      rw [Pool.available_of_isStack hstack, hfree.length_eq, List.length_range]
    unoccupied := by
      intro n
      refine Bool.eq_false_iff.2 fun hoccupied => ?_
      rcases h.books.events.occupied n hoccupied with hmem | ⟨i, p, a, hp, hfilled⟩
      · rw [hconsumer, State.unhandled, hcontent] at hmem
        cases hmem
      · rw [hover.idle p (Array.mem_toList_iff.2 (Array.mem_of_getElem? hp))] at hfilled
        cases hfilled
    drained := by
      intro hpresent hd
      have hlapsed := congrArg List.length (h.delivered hpresent hd)
      rw [List.length_nil] at hlapsed
      omega }

/-- What was delivered is the front of what came into the queue. -/
theorem Sound.ordered (h : Sound s drains first capacity todo w) :
    ∃ order : List (Nat × α), s.delivered.reverse = order.map Prod.snd ∧
      ∀ i, (entriesOf i order).Sublist (todo[i]?.getD []) := by
  refine ⟨w.order.take s.delivered.length, ?_, fun i => ?_⟩
  · rw [List.map_take, h.books.events.order_eq, List.append_assoc, ← List.length_reverse,
      List.take_left]
  · have hentries : (entriesOf i (w.order.take s.delivered.length)).Sublist
        (entriesOf i w.order) := ((List.take_sublist _ _).filter _).map _
    exact (hentries.trans (List.sublist_append_left _ _)).trans (h.books.events.calls i)

/-- Any number of producers on a new engine, its worker and one thread that shuts it down, in any
interleaving in which a producer compares the head in time: once the shutdown returned nothing is
delivered; each producer's events come out once and in the order of its calls; and once all calls
returned too each of them was counted as delivered or as dropped, the queue is empty, all records
are free, and nothing was dropped that a worker was to deliver.  Producers always compare in time if
a record is acquired in one step, however many calls there are, and if there are fewer calls than
half of the versions, in whatever steps they are made. -/
theorem isReliable_run {capacity : Nat} (hsize : capacity ≤ maxPoolCapacity) (drains : Bool)
    (todo : Array (List α)) :
    ∃ s₀, State.new capacity drains todo = .ok s₀ ∧
      (∀ schedule, Undisturbed s₀ schedule → InTime s₀ schedule) ∧
      (2 * calls todo < UInt32.size → ∀ schedule, InTime s₀ schedule) ∧
      ∀ schedule s, run? s₀ schedule = some s → InTime s₀ schedule →
        s.IsReliable capacity drains todo := by
  rcases Pool.new_eq_ok_iff.2 hsize with ⟨pool, hpool⟩
  obtain ⟨s₀, hnew⟩ : ∃ s₀, State.new capacity drains todo = .ok s₀ :=
    ⟨_, by rw [State.new, Shared.new, hpool]⟩
  have hsound := sound_new hnew
  refine ⟨s₀, hnew, fun _ halone => inTime_of_undisturbed (isAbreast_new hnew) halone,
    fun hcalls => inTime_of_calls hsound hcalls, fun schedule s hrun htime => ?_⟩
  rcases sound_run hsound htime hrun with ⟨w, hend⟩
  exact {
    silent := fun hreturned later t hlater =>
      delivered_run_of_returned hend.control hreturned hlater
    ordered := hend.ordered
    settled := hend.isSettled }

/-- One producer is past the check when the shutdown closes the engine and brings its event into
the queue after that; the other comes too late with its second event. -/
def closedMeanwhile : List (Thread × Chance) :=
  [(Thread.producer 0, 19), (.producer 1, 4), (.closer, 4), (.producer 1, 10), (.worker, 2),
    (.producer 0, 6), (.closer, 2), (.worker, 22), (.closer, 5)].flatMap
      fun turn => List.replicate turn.2 (turn.1, {})

/-- A new engine with two records, and two producers with three events. -/
def fresh : State Nat where
  shared := { pool := ⟨0, #[2, 0], ⟨2, 1⟩, 2⟩, queue := ⟨2, 2, 2⟩, links := ⟨#[none, none, none]⟩,
              slots := ⟨#[none, none]⟩ }
  drains := true
  producers := #[{ todo := [10, 11] }, { todo := [20] }]

theorem new_eq_fresh : State.new 2 true #[[10, 11], [20]] = .ok fresh := by
  have hpool : Pool.new Shared.poolNumber 2 = .ok ⟨0, #[2, 0], ⟨2, 1⟩, 2⟩ := rfl
  rw [State.new, Shared.new, hpool]
  simp only [List.map_toArray, List.map_cons, List.map_nil]
  rfl

theorem isReliable_run_closedMeanwhile :
    ∃ s, run? fresh closedMeanwhile = some s ∧ s.IsOver ∧ s.delivered = [20, 10] ∧
      s.shared.stats = { enqueued := 2, written := 2, dropped := 1 } ∧
      s.IsReliable 2 true #[[10, 11], [20]] := by
  rcases @isReliable_run Nat 2 (by decide) true #[[10, 11], [20]] with
    ⟨s₀, hnew, -, htime, hruns⟩
  rw [new_eq_fresh, Except.ok.injEq] at hnew
  subst hnew
  have hrun : run? fresh closedMeanwhile = some
      { shared := { pool := ⟨0, #[0, 1], ⟨6, 2⟩, 2⟩, queue := ⟨2, 2, 2⟩,
                    links := ⟨#[some 1, some 2, none]⟩, slots := ⟨#[none, none]⟩,
                    stats := { enqueued := 2, written := 2, dropped := 1 }, accepting := false,
                    running := false, destroyed := [20, 10, 11] },
        drains := true, started := true, stage := .stopped,
        producers := #[{ todo := [] }, { todo := [], readAt := 1 }], worker := .finished,
        closer := .returned, delivered := [20, 10], returned := 3, changes := 4 } := rfl
  refine ⟨_, hrun, ⟨rfl, by simp⟩, rfl, rfl, ?_⟩
  exact hruns closedMeanwhile _ hrun (htime (by decide) closedMeanwhile)

/-! ## A head that comes round -/

/-- A call of the second producer and the turn of the worker that delivers its event. -/
def lap : List (Thread × Chance) :=
  alone (.producer 1) 14 ++ alone .worker 14

/-- After some laps and two more calls.  The first producer saw the head in its third version, with
all three records on the stack, and is to exchange it for one that links to the second record; by
now this record is with the third producer, and the last one with the fourth. -/
def onLap (k : Nat) (todo : List Unit) : State Unit where
  shared := {
    pool := ⟨0, #[0, 3, 0], ⟨UInt32.ofNat (2 * k + 9), 1⟩, 1⟩
    queue := .new 3
    links := ⟨#[some 3, none, none, none]⟩
    slots := .blank 3
    stats := { enqueued := k + 2, written := k + 2 }
    destroyed := List.replicate (k + 2) () }
  drains := true
  started := true
  inside := 3
  stage := .running
  producers := #[⟨.acquire () (.exchange ⟨3, 1⟩ 2), [], 0⟩, ⟨.idle, todo, 2 * k + 4⟩,
    ⟨.construct () 1, [], 1⟩, ⟨.construct () 2, [], 2⟩]
  worker := .checkRunning
  delivered := List.replicate (k + 2) ()
  returned := k + 2
  changes := 2 * k + 6

theorem isAtRest_onLap (k : Nat) (todo : List Unit) : (onLap k todo).IsAtRest 3 := by
  constructor
  case stub_lt => exact Nat.lt_succ_self 3
  case capacity_le => exact Nat.le_refl 3
  case supported =>
    have hsupported : 3 ≤ maxPoolCapacity := by decide
    exact hsupported
  all_goals rfl

/-- A lap moves the version of the head on by two. -/
theorem shared_onLap (k : Nat) (todo rest : List Unit) :
    ((onLap k todo).shared.offer ()).takeOldest.2.retire 0 = (onLap (k + 1) rest).shared := by
  have hversion : UInt32.ofNat (2 * k + 9) + 1 + 1 = UInt32.ofNat (2 * (k + 1) + 9) := by
    have hsum : 2 * (k + 1) + 9 = 2 * k + 9 + 2 := by omega
    rw [hsum, UInt32.ofNat_add (2 * k + 9), UInt32.add_assoc]
    rfl
  generalize hv : UInt32.ofNat (2 * k + 9) = v at hversion
  rw [onLap, onLap, hv, ← hversion]
  simp [Shared.offer, Pool.acquire, Pool.target?, Shared.append, Slots.place, Slots.isOccupied,
    Slots.payload?, Slots.blank, Queue.new, Queue.push, Links.set, Shared.countEnqueued,
    Shared.takeOldest, Queue.pop, Queue.detachHead, Links.get, Shared.retire, Shared.destroyIn,
    Shared.destroy, Slots.clear, Shared.countWritten, Shared.release, Pool.release, Pool.Owns,
    Pool.record, Pool.capacity, Pool.pushFree, PoolHead.moveTo, Pool.linkTo, List.replicate_succ]

theorem run?_lap (k : Nat) (todo : List Unit) :
    run? (onLap k (() :: todo)) lap = some (onLap (k + 1) todo) := by
  have hlap : run? (onLap k (() :: todo)) lap = some _ :=
    run?_offer_delivery (i := 1) (r := 0) (isAtRest_onLap k _) rfl rfl rfl
  rw [hlap, shared_onLap k _ todo]
  rfl

/-- Any number of laps. -/
theorem run?_laps (n k : Nat) (todo : List Unit) :
    run? (onLap k (List.replicate n () ++ todo)) (List.replicate n lap).flatten =
      some (onLap (k + n) todo) := by
  induction n generalizing k with
  | zero => rfl
  | succ n ih =>
      rw [List.replicate_succ, List.cons_append, List.replicate_succ, List.flatten_cons,
        run?_append (run?_lap k _), ih (k + 1), Nat.add_right_comm, Nat.add_assoc]

/-- As many laps as it takes until the head is in its third version again. -/
def laps : Nat := 2147483645

/-- The events that the four producers are to offer. -/
def lappedCalls : Array (List Unit) :=
  #[[()], List.replicate (laps + 3) (), [()], [()]]

/-- The first producer stands behind its look at the head, and the others take the records; then
the second one hands over its record and makes one more call. -/
def beforeLaps : List (Thread × Chance) :=
  [(Thread.producer 0, 11), (.producer 1, 8), (.producer 2, 8), (.producer 3, 8), (.producer 1, 6),
    (.worker, 14)].flatMap (fun turn => alone turn.1 turn.2) ++ lap

/-- The first producer exchanges the head, and the second one acquires the record that the third
one has.  All hand over their records, the worker delivers what it finds, and the engine is shut
down. -/
def afterLaps : List (Thread × Chance) :=
  [(Thread.producer 0, 2), (.producer 1, 14), (.producer 0, 6), (.producer 2, 6), (.producer 3, 6),
    (.worker, 22), (.closer, 7), (.worker, 3), (.closer, 4)].flatMap
      fun turn => alone turn.1 turn.2

/-- A producer compares the head when it has gone through all its versions. -/
def lapped : List (Thread × Chance) :=
  beforeLaps ++ ((List.replicate laps lap).flatten ++ afterLaps)

/-- Where that leads to. -/
def overrun : State Unit where
  shared := {
    pool := ⟨0, #[0, 3, 2], ⟨7, 3⟩, 1⟩
    queue := .new 3
    links := ⟨#[some 1, some 2, some 3, none]⟩
    slots := ⟨#[some (), none, none]⟩
    stats := { enqueued := laps + 6, written := laps + 4 }
    accepting := false
    running := false
    destroyed := List.replicate (laps + 4) ()
    broken := [.recordOccupied] }
  drains := true
  started := true
  stage := .stopped
  producers := #[⟨.idle, [], 0⟩, ⟨.idle, [], 2 * laps + 7⟩, ⟨.idle, [], 1⟩, ⟨.idle, [], 2⟩]
  worker := .finished
  closer := .returned
  delivered := List.replicate (laps + 4) ()
  returned := laps + 6
  changes := 2 * laps + 10

/-- Three records, all of them free, and the events of the four producers. -/
def unlapped : State Unit where
  shared := { pool := ⟨0, #[2, 3, 0], ⟨3, 1⟩, 3⟩, queue := .new 3,
              links := ⟨#[none, none, none, none]⟩, slots := .blank 3 }
  drains := true
  producers := #[{ todo := [()] }, { todo := List.replicate (laps + 3) () }, { todo := [()] },
    { todo := [()] }]

theorem new_eq_unlapped : State.new 3 true lappedCalls = .ok unlapped := by
  have hpool : Pool.new Shared.poolNumber 3 = .ok ⟨0, #[2, 3, 0], ⟨3, 1⟩, 3⟩ := rfl
  rw [State.new, Shared.new, hpool]
  simp only [lappedCalls, List.map_toArray, List.map_cons, List.map_nil]
  rfl

set_option maxRecDepth 1000 in
theorem run?_beforeLaps :
    run? unlapped beforeLaps = some (onLap 0 (List.replicate laps () ++ [()])) := by
  rw [← List.replicate_succ']
  rfl

set_option maxRecDepth 1000 in
theorem run?_afterLaps : run? (onLap laps [()]) afterLaps = some overrun := rfl

/-- A producer may find the head as it saw it although it changed as often as there are versions.
Two producers then have one record, and two events are lost: everybody returned and the worker was
to deliver what is queued, but not all calls were counted as delivered or as dropped, and a record
still holds an event. -/
theorem not_isReliable_lapped :
    ∃ s₀ s, State.new 3 true lappedCalls = .ok s₀ ∧ run? s₀ lapped = some s ∧ s.IsOver ∧
      s.worker = .finished ∧ s.returned = calls lappedCalls ∧
      s.shared.stats.written + s.shared.stats.dropped + 2 = calls lappedCalls ∧
      s.shared.stats.written + 2 = s.shared.stats.enqueued ∧
      s.shared.slots.isOccupied 0 = true ∧ ¬ s.IsReliable 3 true lappedCalls := by
  have hlaps := run?_laps laps 0 [()]
  rw [Nat.zero_add] at hlaps
  have hrun : run? unlapped lapped = some overrun := by
    rw [lapped, run?_append run?_beforeLaps, run?_append hlaps, run?_afterLaps]
  have hcalls : calls lappedCalls = laps + 6 := by
    simp [calls, lappedCalls]
    omega
  have hover : overrun.IsOver := ⟨rfl, by simp [overrun]⟩
  refine ⟨unlapped, overrun, new_eq_unlapped, hrun, hover, rfl, hcalls.symm, ?_, rfl, rfl, ?_⟩
  · rw [hcalls]
    rfl
  · intro hreliable
    have hcounted : laps + 4 + 0 = laps + 6 := (hreliable.settled hover).returned_eq
    omega

end EngineThreads

end EventLog
