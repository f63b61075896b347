import EventLog.Interleaving.EngineThreads
import EventLog.Proofs.Interleaving.PoolRuns

/-!
# The handshake between producers, worker and shutdown

A producer enters before it looks whether events are accepted, and the thread that shuts down
closes the engine before it looks whether a producer is inside.  So once it found none inside, no
producer is on its way to the queue any more, and only then does it tell the worker to stop.

The lock decides who has the target: the worker if a start went through before, and the thread
that shuts down otherwise, which waits for the worker before it goes on to the queue itself.

Main results:

- `EngineThreads.Control`: the facts above, for any position of the threads.
- `EngineThreads.control_stepProducer`: a step of a producer keeps them.
-/

namespace EventLog

namespace EngineThreads

variable {α : Type}

/-! ## Positions -/

/-- The producer found that events are accepted and has not left since. -/
def ProducerPhase.isAdmitted : ProducerPhase α → Bool
  | .acquire .. => true
  | .construct .. => true
  | .push .. => true
  | .countEnqueued => true
  | .countExhausted _ => true
  | .leave => true
  | _ => false

/-- The producer entered and has not left since. -/
def ProducerPhase.isInside : ProducerPhase α → Bool
  | .checkAccepting _ => true
  | .leaveRefused _ => true
  | phase => phase.isAdmitted

/-- The producer has the lock. -/
def ProducerPhase.hasLock : ProducerPhase α → Bool
  | .launch _ => true
  | .markStarted .. => true
  | .conclude .. => true
  | .unlock _ => true
  | _ => false

/-- The producer tried to make the worker's thread and has not noted the outcome yet. -/
def ProducerPhase.isConcluding : ProducerPhase α → Bool
  | .markStarted .. => true
  | .conclude .. => true
  | _ => false

/-- The producer made the worker's thread and has not noted it yet. -/
def ProducerPhase.isStarting : ProducerPhase α → Bool
  | .markStarted _ spawned => spawned
  | .conclude _ spawned => spawned
  | _ => false

theorem ProducerPhase.hasLock_of_isConcluding {phase : ProducerPhase α}
    (h : phase.isConcluding = true) : phase.hasLock = true := by
  cases phase <;> simp_all [isConcluding, hasLock]

theorem ProducerPhase.isConcluding_of_isStarting {phase : ProducerPhase α}
    (h : phase.isStarting = true) : phase.isConcluding = true := by
  cases phase <;> simp_all [isConcluding, isStarting]

theorem ProducerPhase.isInside_of_isAdmitted {phase : ProducerPhase α}
    (h : phase.isAdmitted = true) : phase.isInside = true := by
  cases phase <;> simp_all [isInside, isAdmitted]

/-- The worker saw that it is not to go on. -/
def WorkerPhase.isStopping : WorkerPhase → Bool
  | .consume draining _ => draining
  | .finished => true
  | _ => false

/-- How far the thread that shuts down has come. -/
def CloserPhase.rank : CloserPhase → Nat
  | .idle => 0
  | .lock => 1
  | .refuse => 2
  | .markStarted => 3
  | .await => 4
  | .stop => 5
  | .claim => 6
  | .join => 7
  | .drain _ => 7
  | .discard _ => 8
  | .unlock => 9
  | .returned => 10

theorem CloserPhase.rank_afterDeliver (phase : ConsumerPhase) :
    7 ≤ (afterDeliver phase).rank ∧ (afterDeliver phase).rank ≤ 8 := by
  cases phase <;> simp [afterDeliver, rank]

theorem CloserPhase.rank_afterDiscard (phase : ConsumerPhase) :
    8 ≤ (afterDiscard phase).rank ∧ (afterDiscard phase).rank ≤ 9 := by
  cases phase <;> simp [afterDiscard, rank]

theorem CloserPhase.afterDiscard_ne_drain (phase next : ConsumerPhase) :
    afterDiscard phase ≠ drain next := by
  cases phase <;> simp [afterDiscard]

/-- Where a producer stands after a step of its acquisition. -/
theorem afterAcquire_cases (a : α) (next : Pool.AcquirePhase) :
    (∃ index, ProducerPhase.afterAcquire a next = .construct a index) ∨
      ProducerPhase.afterAcquire a next = .countExhausted a ∨
        ProducerPhase.afterAcquire a next = .acquire a next := by
  cases next with
  | done index =>
      cases index with
      | none => exact Or.inr (Or.inl rfl)
      | some index => exact Or.inl ⟨index, rfl⟩
  | _ => exact Or.inr (Or.inr rfl)

/-- The worker stops only if it saw before that it is not to go on. -/
theorem WorkerPhase.isStopping_afterDeliver {draining : Bool} {phase : ConsumerPhase}
    (h : (afterDeliver draining phase).isStopping = true) : draining = true := by
  cases draining with
  | true => rfl
  | false =>
      unfold afterDeliver at h
      split at h <;> simp_all [isStopping]

/-! ## What the handshake keeps -/

/-- Where the threads can be at the same time. -/
structure Control (s : State α) : Prop where
  inside_eq : s.inside = s.producers.toList.countP fun p : Producer α => p.phase.isInside
  producer_owns : ∀ (i : Nat) (p : Producer α), s.producers[i]? = some p → p.phase.hasLock = true →
    s.owner = some (.producer i)
  closer_owns : 2 ≤ s.closer.rank → s.closer.rank ≤ 9 → s.owner = some .closer
  refused : 3 ≤ s.closer.rank → s.shared.accepting = false
  /-- No producer is on its way to the queue once none was found inside. -/
  vacated : 5 ≤ s.closer.rank → ∀ p : Producer α, p ∈ s.producers.toList →
    p.phase.isAdmitted = false
  stopping : s.shared.running = false → 6 ≤ s.closer.rank
  worker_stopping : s.worker.isStopping = true → s.shared.running = false
  absent_of_idle : s.stage = .idle → s.worker = .absent
  concluding : ∀ (i : Nat) (p : Producer α), s.producers[i]? = some p →
    p.phase.isConcluding = true → s.stage = .failed
  /-- A start that failed leaves no worker. -/
  failed : s.stage = .failed → s.worker ≠ .absent →
    ∃ (i : Nat) (p : Producer α), s.producers[i]? = some p ∧ p.phase.isStarting = true
  stopped_iff : s.stage = .stopped ↔ 7 ≤ s.closer.rank
  absent_of_drain : ∀ phase, s.closer = .drain phase → s.worker = .absent
  /-- The worker is gone when what is left is discarded. -/
  gone : 8 ≤ s.closer.rank → s.worker = .absent ∨ s.worker = .finished

variable {s t : State α} {i : Nat} {p p' : Producer α}

/-- A new engine, with nothing in its records. -/
theorem eq_of_new {capacity : Nat} {drains : Bool} {todo : Array (List α)}
    (hnew : State.new capacity drains todo = .ok s) :
    ∃ pool, Pool.new Shared.poolNumber capacity = .ok pool ∧
      s = { shared := { pool, queue := .new capacity, links := .blank (capacity + 1),
                        slots := .blank capacity },
            drains, producers := todo.map fun events => { todo := events } } := by
  unfold State.new Shared.new at hnew
  cases hpool : Pool.new Shared.poolNumber capacity with
  | error p =>
      rw [hpool] at hnew
      cases hnew
  | ok pool =>
      rw [hpool] at hnew
      exact ⟨pool, rfl, (Except.ok.inj hnew).symm⟩

/-- All producers of a new engine are idle. -/
theorem phase_eq_of_new {capacity : Nat} {drains : Bool} {todo : Array (List α)}
    (hnew : State.new capacity drains todo = .ok s) {w : Producer α}
    (hw : w ∈ s.producers.toList) : w.phase = .idle := by
  rcases eq_of_new hnew with ⟨pool, -, rfl⟩
  rw [Array.toList_map] at hw
  rcases List.mem_map.1 hw with ⟨events, -, rfl⟩
  rfl

/-- In the beginning nobody has done anything. -/
theorem control_new {capacity : Nat} {drains : Bool} {todo : Array (List α)}
    (hnew : State.new capacity drains todo = .ok s) : Control s := by
  have hidle : ∀ {w}, w ∈ s.producers.toList → w.phase = .idle := phase_eq_of_new hnew
  have hget : ∀ {i : Nat} {w : Producer α}, s.producers[i]? = some w → w.phase = .idle :=
    fun hw => hidle (Array.mem_toList_iff.2 (Array.mem_of_getElem? hw))
  have hcount : s.producers.toList.countP (fun p => p.phase.isInside) = 0 := by
    refine List.countP_eq_zero.2 fun w hw => ?_
    simp [hidle hw, ProducerPhase.isInside, ProducerPhase.isAdmitted]
  rcases eq_of_new hnew with ⟨pool, -, rfl⟩
  exact {
    inside_eq := hcount.symm
    producer_owns := by
      intro i w hw hlock
      simp [hget hw, ProducerPhase.hasLock] at hlock
    closer_owns := by simp [CloserPhase.rank]
    refused := by simp [CloserPhase.rank]
    vacated := by simp [CloserPhase.rank]
    stopping := by simp
    worker_stopping := by simp [WorkerPhase.isStopping]
    absent_of_idle := fun _ => rfl
    concluding := by
      intro i w hw hconcluding
      simp [hget hw, ProducerPhase.isConcluding] at hconcluding
    failed := by simp
    stopped_iff := by simp [CloserPhase.rank]
    absent_of_drain := by simp
    gone := by simp [CloserPhase.rank] }

/-! ## Steps of producers -/

/-- What a step of a producer does to the stage. -/
inductive StageMove (s t : State α) (p p' : Producer α) : Prop where
  | keep (stage : t.stage = s.stage) (worker : t.worker = s.worker)
      (concluding : p'.phase.isConcluding = true → p.phase.isConcluding = true)
      (starting : p.phase.isStarting = true → p'.phase.isStarting = true)
  | launch (idle : s.stage = .idle) (stage : t.stage = .failed)
      (worker : t.worker = .absent ∨ t.worker = .checkRunning ∧ p'.phase.isStarting = true)
  | conclude (concluding : p.phase.isConcluding = true) (stage : t.stage = .running)
      (worker : t.worker = s.worker) (concluded : p'.phase.isConcluding = false)

/-- The producers after a step of one of them. -/
theorem getElem?_setProducer (hi : s.producers[i]? = some p)
    (hproducers : t.producers = s.producers.setIfInBounds i p') {j : Nat} {w : Producer α} :
    t.producers[j]? = some w ↔ j = i ∧ w = p' ∨ j ≠ i ∧ s.producers[j]? = some w := by
  rcases Array.getElem?_eq_some_iff.1 hi with ⟨hlt, -⟩
  rw [hproducers]
  by_cases hji : j = i
  · subst hji
    rw [Array.getElem?_setIfInBounds_self_of_lt hlt]
    simp [eq_comm]
  · rw [Array.getElem?_setIfInBounds_ne (Ne.symm hji)]
    simp [hji]

/-- A step of a producer that keeps to the protocol. -/
theorem Control.producer (h : Control s) (hi : s.producers[i]? = some p)
    (hproducers : t.producers = s.producers.setIfInBounds i p') (hcloser : t.closer = s.closer)
    (hrunning : t.shared.running = s.shared.running)
    (hinside : t.inside + p.phase.isInside.toNat = s.inside + p'.phase.isInside.toNat)
    (hlock : p'.phase.hasLock = true → t.owner = some (.producer i))
    (howner : t.owner = s.owner ∨ s.owner = none ∨ s.owner = some (.producer i))
    (haccepting : s.shared.accepting = false → t.shared.accepting = false)
    (hadmitted : p'.phase.isAdmitted = true → p.phase.isAdmitted = true ∨
      s.shared.accepting = true)
    (hstage : StageMove s t p p') : Control t := by
  have hget : ∀ {j w}, t.producers[j]? = some w ↔
      j = i ∧ w = p' ∨ j ≠ i ∧ s.producers[j]? = some w := getElem?_setProducer hi hproducers
  rcases PoolThreads.exists_perm_of_getElem? hi with ⟨others, hperm, hset⟩
  have hother : ∀ j w, j ≠ i → s.producers[j]? = some w → w.phase.hasLock = true →
      t.owner = s.owner := by
    intro j w hj hw hlockw
    have howns := h.producer_owns j w hw hlockw
    rcases howner with heq | hnone | hself
    · exact heq
    · rw [hnone] at howns
      cases howns
    · rw [hself] at howns
      exact absurd (by simpa using howns.symm) hj
  have hconcluding : ∀ j w, j ≠ i → s.producers[j]? = some w → w.phase.isConcluding = true →
      t.stage = .failed := by
    intro j w hj hw hcw
    have hfailed := h.concluding j w hw hcw
    cases hstage with
    | keep stage worker concluding starting => rw [stage, hfailed]
    | launch idle stage worker => exact stage
    | conclude concluding stage worker concluded =>
        -- both would have the lock
        have hj' := h.producer_owns j w hw (ProducerPhase.hasLock_of_isConcluding hcw)
        have hi' := h.producer_owns i p hi (ProducerPhase.hasLock_of_isConcluding concluding)
        rw [hi'] at hj'
        exact absurd (by simpa using hj'.symm) hj
  exact {
    inside_eq := by
      have hs := h.inside_eq
      rw [hperm.countP_eq, List.countP_cons] at hs
      rw [hproducers, (hset p').countP_eq, List.countP_cons]
      cases hp : p.phase.isInside <;> cases hp' : p'.phase.isInside <;>
        simp only [hp, hp', Bool.toNat_true, Bool.toNat_false, if_true, Bool.false_eq_true,
          if_false] at hs hinside ⊢ <;> omega
    producer_owns := by
      intro j w hw hlockw
      rcases hget.1 hw with ⟨rfl, rfl⟩ | ⟨hj, hw⟩
      · exact hlock hlockw
      · rw [hother j w hj hw hlockw]
        exact h.producer_owns j w hw hlockw
    closer_owns := by
      intro hlow hhigh
      rw [hcloser] at hlow hhigh
      have howns := h.closer_owns hlow hhigh
      rcases howner with heq | hnone | hself
      · rw [heq, howns]
      · rw [hnone] at howns
        cases howns
      · rw [hself] at howns
        cases howns
    refused := fun hrank => haccepting (h.refused (hcloser ▸ hrank))
    vacated := by
      intro hrank w hw
      rw [hcloser] at hrank
      rw [hproducers, (hset p').mem_iff] at hw
      rcases List.mem_cons.1 hw with rfl | hw
      · have hp := h.vacated hrank p (hperm.mem_iff.2 List.mem_cons_self)
        have hclosed := h.refused (by omega)
        cases hw' : w.phase.isAdmitted with
        | false => rfl
        | true =>
            rcases hadmitted hw' with hp' | hopen
            · rw [hp] at hp'
              cases hp'
            · rw [hclosed] at hopen
              cases hopen
      · exact h.vacated hrank w (hperm.mem_iff.2 (List.mem_cons_of_mem p hw))
    stopping := by
      rw [hrunning, hcloser]
      exact h.stopping
    worker_stopping := by
      rw [hrunning]
      cases hstage with
      | keep stage worker concluding starting =>
          rw [worker]
          exact h.worker_stopping
      | launch idle stage worker =>
          intro hstop
          rcases worker with habsent | ⟨hmade, -⟩
          · rw [habsent] at hstop
            cases hstop
          · rw [hmade] at hstop
            cases hstop
      | conclude concluding stage worker concluded =>
          rw [worker]
          exact h.worker_stopping
    absent_of_idle := by
      intro hidle
      cases hstage with
      | keep stage worker concluding starting =>
          rw [worker]
          exact h.absent_of_idle (stage ▸ hidle)
      | launch idle stage worker =>
          rw [stage] at hidle
          cases hidle
      | conclude concluding stage worker concluded =>
          rw [stage] at hidle
          cases hidle
    concluding := by
      intro j w hw hcw
      rcases hget.1 hw with ⟨rfl, rfl⟩ | ⟨hj, hw⟩
      · cases hstage with
        | keep stage worker concluding starting =>
            rw [stage]
            exact h.concluding j p hi (concluding hcw)
        | launch idle stage worker => exact stage
        | conclude concluding stage worker concluded =>
            rw [concluded] at hcw
            cases hcw
      · exact hconcluding j w hj hw hcw
    failed := by
      intro hfailed hworker
      cases hstage with
      | keep stage worker concluding starting =>
          rcases h.failed (stage ▸ hfailed) (worker ▸ hworker) with ⟨j, w, hw, hstarting⟩
          by_cases hj : j = i
          · subst hj
            rw [hi] at hw
            obtain rfl := Option.some.inj hw
            exact ⟨j, p', hget.2 (Or.inl ⟨rfl, rfl⟩), starting hstarting⟩
          · exact ⟨j, w, hget.2 (Or.inr ⟨hj, hw⟩), hstarting⟩
      | launch idle stage worker =>
          rcases worker with habsent | ⟨-, hstarting⟩
          · exact absurd habsent hworker
          · exact ⟨i, p', hget.2 (Or.inl ⟨rfl, rfl⟩), hstarting⟩
      | conclude concluding stage worker concluded =>
          rw [stage] at hfailed
          cases hfailed
    stopped_iff := by
      rw [hcloser, ← h.stopped_iff]
      cases hstage with
      | keep stage worker concluding starting => rw [stage]
      | launch idle stage worker => simp [idle, stage]
      | conclude concluding stage worker concluded =>
          simp [h.concluding i p hi concluding, stage]
    absent_of_drain := by
      intro phase hphase
      rw [hcloser] at hphase
      have habsent := h.absent_of_drain phase hphase
      cases hstage with
      | keep stage worker concluding starting => rw [worker, habsent]
      | launch idle stage worker =>
          have hstopped := h.stopped_iff.2 (by rw [hphase]; exact Nat.le_refl 7)
          rw [idle] at hstopped
          cases hstopped
      | conclude concluding stage worker concluded => rw [worker, habsent]
    gone := by
      intro hrank
      rw [hcloser] at hrank
      have hgone := h.gone hrank
      cases hstage with
      | keep stage worker concluding starting =>
          rw [worker]
          exact hgone
      | launch idle stage worker =>
          have hstopped := h.stopped_iff.2 (by omega)
          rw [idle] at hstopped
          cases hstopped
      | conclude concluding stage worker concluded =>
          rw [worker]
          exact hgone }

/-- What matters of the position of a producer. -/
def ProducerPhase.place (phase : ProducerPhase α) : Bool × Bool × Bool × Bool × Bool :=
  (phase.isInside, phase.isAdmitted, phase.hasLock, phase.isConcluding, phase.isStarting)

/-- What the handshake is about beside the producers. -/
structure Flags where
  closer : CloserPhase
  worker : WorkerPhase
  stage : Stage
  owner : Option Thread
  inside : Nat
  drains : Bool
  accepting : Bool
  running : Bool

/-- The flags of an engine and the positions of its worker and of the shutdown. -/
def State.flags (s : State α) : Flags where
  closer := s.closer
  worker := s.worker
  stage := s.stage
  owner := s.owner
  inside := s.inside
  drains := s.drains
  accepting := s.shared.accepting
  running := s.shared.running

/-- Two states between which nothing moved but producers. -/
structure SameFlags (s t : State α) : Prop where
  closer : t.closer = s.closer
  worker : t.worker = s.worker
  stage : t.stage = s.stage
  owner : t.owner = s.owner
  inside : t.inside = s.inside
  drains : t.drains = s.drains
  accepting : t.shared.accepting = s.shared.accepting
  running : t.shared.running = s.shared.running

theorem sameFlags (h : t.flags = s.flags) : SameFlags s t := by
  simp only [State.flags, Flags.mk.injEq] at h
  rcases h with ⟨hcloser, hworker, hstage, howner, hinside, hdrains, haccepting, hrunning⟩
  exact ⟨hcloser, hworker, hstage, howner, hinside, hdrains, haccepting, hrunning⟩

/-- Two states between which the handshake did not move. -/
structure SameControl (s t : State α) : Prop extends SameFlags s t where
  producers : t.producers = s.producers

theorem sameControl (hproducers : t.producers = s.producers) (hflags : t.flags = s.flags) :
    SameControl s t := ⟨sameFlags hflags, hproducers⟩

/-- A step of a producer that stays in its place and touches nothing that the handshake needs. -/
theorem Control.producer_keep (h : Control s) (hi : s.producers[i]? = some p)
    (hproducers : t.producers = s.producers.setIfInBounds i p') (hflags : t.flags = s.flags)
    (hplace : p'.phase.place = p.phase.place) : Control t := by
  have hsame := sameFlags hflags
  simp only [ProducerPhase.place, Prod.mk.injEq] at hplace
  rcases hplace with ⟨hin, hadmitted, hlock, hconcluding, hstarting⟩
  refine h.producer hi hproducers hsame.closer hsame.running ?_ ?_ (Or.inl hsame.owner) ?_ ?_
    (.keep hsame.stage hsame.worker ?_ ?_)
  · rw [hin, hsame.inside]
  · rw [hlock, hsame.owner]
    exact h.producer_owns i p hi
  · rw [hsame.accepting]
    exact id
  · rw [hadmitted]
    exact Or.inl
  · rw [hconcluding]
    exact id
  · rw [hstarting]
    exact id

/-- A producer that is inside is counted. -/
theorem Control.inside_pos (h : Control s) (hi : s.producers[i]? = some p)
    (hinside : p.phase.isInside = true) : 0 < s.inside := by
  rw [h.inside_eq]
  exact List.countP_pos_iff.2 ⟨p, Array.mem_toList_iff.2 (Array.mem_of_getElem? hi), hinside⟩

/-- A step of a producer. -/
theorem control_stepProducer (h : Control s) (hi : s.producers[i]? = some p) {chance : Chance}
    (hstep : stepProducer s i p chance = some t) : Control t := by
  cases hphase : p.phase with
  | idle =>
      simp only [stepProducer, hphase] at hstep
      split at hstep
      · cases hstep
      · cases hstep
        exact h.producer_keep hi rfl rfl (by rw [hphase]; rfl)
  | checkStarted a =>
      simp only [stepProducer, hphase] at hstep
      cases hstep
      refine h.producer_keep hi rfl rfl ?_
      rw [hphase]
      dsimp only
      split <;> rfl
  | lock a =>
      simp only [stepProducer, hphase] at hstep
      split at hstep
      · rename_i hfree
        cases hstep
        refine h.producer hi rfl rfl rfl (by rw [hphase]; rfl) (fun _ => rfl)
          (Or.inr (Or.inl hfree)) id (fun hp => by cases hp)
          (.keep rfl rfl (fun hp => by cases hp) ?_)
        rw [hphase]
        exact id
      · cases hstep
  | launch a =>
      simp only [stepProducer, hphase] at hstep
      have howner := h.producer_owns i p hi (by rw [hphase]; rfl)
      split at hstep
      · rename_i hidle
        cases hstep
        refine h.producer hi rfl rfl rfl (by rw [hphase]; rfl) (fun _ => howner) (Or.inl rfl)
          id (fun hp => by cases hp) (.launch hidle rfl ?_)
        cases hspawns : chance.spawns with
        | false => exact Or.inl (by simp [State.setProducer])
        | true => exact Or.inr ⟨by simp [State.setProducer], rfl⟩
      · cases hstep
        exact h.producer_keep hi rfl rfl (by rw [hphase]; rfl)
  | markStarted a spawned =>
      simp only [stepProducer, hphase] at hstep
      cases hstep
      exact h.producer_keep hi rfl rfl (by rw [hphase]; rfl)
  | conclude a spawned =>
      simp only [stepProducer, hphase] at hstep
      have howner := h.producer_owns i p hi (by rw [hphase]; rfl)
      cases hspawned : spawned with
      | true =>
          rw [hspawned] at hstep
          cases hstep
          exact h.producer hi rfl rfl rfl (by rw [hphase]; rfl) (fun _ => howner) (Or.inl rfl)
            id (fun hp => by cases hp) (.conclude (by rw [hphase]; rfl) rfl rfl rfl)
      | false =>
          rw [hspawned] at hstep
          cases hstep
          refine h.producer hi rfl rfl rfl (by rw [hphase]; rfl) (fun _ => howner) (Or.inl rfl)
            (fun _ => rfl) (fun hp => by cases hp) (.keep rfl rfl (fun hp => by cases hp) ?_)
          rw [hphase, hspawned]
          exact id
  | unlock a =>
      simp only [stepProducer, hphase] at hstep
      cases hstep
      have howner := h.producer_owns i p hi (by rw [hphase]; rfl)
      refine h.producer hi rfl rfl rfl (by rw [hphase]; rfl) (fun hp => by cases hp)
        (Or.inr (Or.inr howner)) id (fun hp => by cases hp)
        (.keep rfl rfl (fun hp => by cases hp) ?_)
      rw [hphase]
      exact id
  | enter a =>
      simp only [stepProducer, hphase] at hstep
      cases hstep
      refine h.producer hi rfl rfl rfl (by rw [hphase]; rfl) (fun hp => by cases hp)
        (Or.inl rfl) id (fun hp => by cases hp) (.keep rfl rfl (fun hp => by cases hp) ?_)
      rw [hphase]
      exact id
  | checkAccepting a =>
      simp only [stepProducer, hphase] at hstep
      cases hstep
      cases haccepting : s.shared.accepting with
      | true =>
          refine h.producer hi rfl rfl rfl (by rw [hphase]; rfl) (fun hp => by cases hp)
            (Or.inl rfl) id (fun _ => Or.inr haccepting)
            (.keep rfl rfl (fun hp => by cases hp) ?_)
          rw [hphase]
          exact id
      | false =>
          refine h.producer hi rfl rfl rfl (by rw [hphase]; rfl) (fun hp => by cases hp)
            (Or.inl rfl) id (fun hp => by cases hp)
            (.keep rfl rfl (fun hp => by cases hp) ?_)
          rw [hphase]
          exact id
  | leaveRefused a =>
      simp only [stepProducer, hphase] at hstep
      cases hstep
      have hpos := h.inside_pos hi (by rw [hphase]; rfl)
      refine h.producer hi rfl rfl rfl ?_ (fun hp => by cases hp)
        (Or.inl rfl) id (fun hp => by cases hp) (.keep rfl rfl (fun hp => by cases hp) ?_)
      · rw [hphase]
        exact Nat.sub_add_cancel hpos
      · rw [hphase]
        exact id
  | countRefused a =>
      simp only [stepProducer, hphase] at hstep
      cases hstep
      exact h.producer_keep hi rfl rfl (by rw [hphase]; rfl)
  | acquire a phase =>
      simp only [stepProducer, hphase] at hstep
      cases hstep
      refine h.producer_keep hi rfl rfl ?_
      rw [hphase, Producer.afterAcquire]
      rcases afterAcquire_cases a (phase.step chance.weak s.shared.pool).1 with
        ⟨index, hnext⟩ | hnext | hnext <;> rw [hnext] <;> rfl
  | construct a index =>
      simp only [stepProducer, hphase] at hstep
      cases hstep
      have hflags : State.flags { s with shared := place s.shared index a } = s.flags := by
        unfold place
        split <;> rfl
      exact h.producer_keep hi rfl hflags (by rw [hphase]; rfl)
  | push a phase =>
      simp only [stepProducer, hphase] at hstep
      cases hstep
      refine h.producer_keep hi rfl rfl ?_
      rw [hphase]
      dsimp only
      cases (phase.step s.shared.queue s.shared.links).1 <;> rfl
  | countEnqueued =>
      simp only [stepProducer, hphase] at hstep
      cases hstep
      exact h.producer_keep hi rfl rfl (by rw [hphase]; rfl)
  | countExhausted a =>
      simp only [stepProducer, hphase] at hstep
      cases hstep
      exact h.producer_keep hi rfl rfl (by rw [hphase]; rfl)
  | leave =>
      simp only [stepProducer, hphase] at hstep
      cases hstep
      have hpos := h.inside_pos hi (by rw [hphase]; rfl)
      refine h.producer hi rfl rfl rfl ?_ (fun hp => by cases hp)
        (Or.inl rfl) id (fun hp => by cases hp) (.keep rfl rfl (fun hp => by cases hp) ?_)
      · rw [hphase]
        exact Nat.sub_add_cancel hpos
      · rw [hphase]
        exact id

end EngineThreads

end EventLog
