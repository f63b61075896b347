import EventLog.Proofs.Interleaving.EngineAccount
import EventLog.Proofs.Interleaving.EngineShutdown

/-!
# Steps of threads on an engine

The worker and the thread that shuts down are one consumer in turn: the latter takes over only
where there is no worker or the worker has ended.  So the books hold throughout, and the handshake
says what they come to in the end: with nobody on the way to the queue any more the last pop finds
it empty, and nothing is discarded that a worker was to deliver.

Main results:

- `EngineThreads.Sound`: handshake and books, and what the one means for the other.
- `EngineThreads.sound_step`: a step of any thread keeps them.
-/

namespace EventLog

namespace EngineThreads

variable {α : Type}

/-! ## The consumer -/

/-- Where the worker stands as a consumer. -/
def WorkerPhase.consumer : WorkerPhase → ConsumerPhase
  | .consume _ phase => phase
  | _ => .exhausted

/-- Where the thread that shuts down stands as a consumer. -/
def CloserPhase.consumer? : CloserPhase → Option ConsumerPhase
  | .drain phase => some phase
  | .discard phase => some phase
  | _ => none

/-- The thread that shuts down discards what is queued. -/
def CloserPhase.discards : CloserPhase → Bool
  | .discard _ => true
  | _ => false

/-- Where the consumer stands. -/
def State.consumer (s : State α) : ConsumerPhase := s.closer.consumer?.getD s.worker.consumer

variable {s t u : State α} {c c' : ConsumerPhase} {discards drains : Bool} {first : UInt32}
  {capacity i : Nat} {p : Producer α} {todo : Array (List α)} {w : Account α}

theorem WorkerPhase.afterDeliver_ne (draining b : Bool) (phase : ConsumerPhase) :
    afterDeliver draining phase ≠ consume b .exhausted := by
  intro h
  unfold afterDeliver at h
  split at h <;> simp_all

/-- The worker goes on with its delivery, or is between two pops. -/
theorem WorkerPhase.consumer_afterDeliver (draining : Bool) (phase : ConsumerPhase) :
    (afterDeliver draining phase).consumer = phase ∨
      phase.isResting = true ∧ (afterDeliver draining phase).consumer.isResting = true := by
  unfold afterDeliver
  split
  · exact Or.inl rfl
  · exact Or.inl rfl
  · exact Or.inr ⟨rfl, rfl⟩
  · exact Or.inl rfl

theorem WorkerPhase.afterDeliver_eq_finished {draining : Bool} {phase : ConsumerPhase}
    (h : afterDeliver draining phase = finished) : phase = .exhausted := by
  unfold afterDeliver at h
  split at h <;> first | rfl | cases h

/-- What follows a delivery in place of a worker. -/
theorem CloserPhase.afterDeliver_cases (phase : ConsumerPhase) :
    phase = .exhausted ∧ afterDeliver phase = discard (.pop .start) ∨
      afterDeliver phase = drain phase := by
  cases phase with
  | exhausted => exact Or.inl ⟨rfl, rfl⟩
  | _ => exact Or.inr rfl

/-- What follows a discard. -/
theorem CloserPhase.afterDiscard_cases (phase : ConsumerPhase) :
    phase = .exhausted ∧ afterDiscard phase = unlock ∨
      phase ≠ .exhausted ∧ afterDiscard phase = discard phase := by
  cases phase with
  | exhausted => exact Or.inl ⟨rfl, rfl⟩
  | _ => exact Or.inr ⟨by simp, rfl⟩

/-- The worker alone consumes as long as it is there. -/
theorem Control.consumer_of_worker (h : Control s) (habsent : s.worker ≠ .absent)
    (hfinished : s.worker ≠ .finished) :
    s.closer.consumer? = none ∧ s.closer.discards = false ∧ s.closer.rank < 8 := by
  have hlow : s.closer.rank < 8 := by
    by_contra hhigh
    rcases h.gone (Nat.le_of_not_lt hhigh) with hgone | hgone
    · exact habsent hgone
    · exact hfinished hgone
  cases hcloser : s.closer with
  | drain phase => exact absurd (h.absent_of_drain phase hcloser) habsent
  | discard phase =>
      rw [hcloser] at hlow
      exact absurd hlow (Nat.lt_irrefl 8)
  | unlock =>
      rw [hcloser] at hlow
      exact absurd hlow (by decide)
  | returned =>
      rw [hcloser] at hlow
      exact absurd hlow (by decide)
  | _ => exact ⟨rfl, rfl, by decide⟩

/-! ## Handshake and books -/

/-- The books do not depend on where worker and shutdown stand. -/
theorem Books.congr (h : Books s c discards first capacity todo w)
    (hproducers : t.producers = s.producers) (hstock : t.stock = s.stock)
    (hstats : t.shared.stats = s.shared.stats) (hreturned : t.returned = s.returned) :
    Books t c discards first capacity todo w where
  records := h.records.congr (sameStock hstock).pool (sameStock hstock).changes
    (sameStock hstock).queue (sameStock hstock).links hproducers
  events := by
    refine h.events.congr hproducers (sameStock hstock).slots (sameStock hstock).delivered ?_
    rw [State.unhandled, State.unhandled, (sameStock hstock).queue]
  counts := h.counts.consumer hproducers hreturned (by rw [hstats])
    (by rw [hstats, (sameStock hstock).delivered]) (by rw [hstats])
  changes_le := by
    have hs := h.changes_le
    rw [State.sum] at hs
    rw [(sameStock hstock).changes, State.sum, hproducers]
    exact hs

/-- The handshake, the books, and what the one means for the other. -/
structure Sound (s : State α) (drains : Bool) (first : UInt32) (capacity : Nat)
    (todo : Array (List α)) (w : Account α) : Prop where
  control : Control s
  books : Books s s.consumer s.closer.discards first capacity todo w
  drains_eq : s.drains = drains
  /-- A consumer that found the queue empty does not go on consuming. -/
  worker_ne : ∀ b, s.worker ≠ .consume b .exhausted
  closer_ne : s.closer ≠ .discard .exhausted
  undiscarded : s.closer.rank < 8 → w.lapsed = []
  /-- A worker that is to deliver what is queued ends when nothing is. -/
  drained : s.worker = .finished → drains = true → w.pending = []
  delivered : s.worker ≠ .absent → drains = true → w.lapsed = []
  emptied : 9 ≤ s.closer.rank → w.pending = []

/-- A new engine. -/
theorem sound_new (hnew : State.new capacity drains todo = .ok s) :
    Sound s drains s.shared.pool.head.version capacity todo
      ⟨List.range capacity, [capacity], [], [], []⟩ := by
  have hcontrol := control_new hnew
  have hbooks := books_new hnew
  rcases eq_of_new hnew with ⟨pool, -, rfl⟩
  exact ⟨hcontrol, hbooks, rfl, by simp, by simp, fun _ => rfl, fun _ _ => rfl, fun _ _ => rfl,
    fun _ => rfl⟩

/-! ## Steps -/

/-- What a step of a producer does to the worker. -/
theorem worker_stepProducer {chance : Chance} (hstep : stepProducer s i p chance = some t) :
    t.drains = s.drains ∧ (t.worker = s.worker ∨
      s.stage = .idle ∧ (t.worker = .absent ∨ t.worker = .checkRunning)) := by
  cases hphase : p.phase with
  | launch a =>
      simp only [stepProducer, hphase] at hstep
      split at hstep
      · rename_i hidle
        cases hstep
        refine ⟨rfl, Or.inr ⟨hidle, ?_⟩⟩
        cases hspawns : chance.spawns with
        | false => exact Or.inl (by simp [State.setProducer])
        | true => exact Or.inr (by simp [State.setProducer])
      · cases hstep
        exact ⟨rfl, Or.inl rfl⟩
  | _ =>
      simp only [stepProducer, hphase] at hstep
      repeat' split at hstep
      all_goals cases hstep
      all_goals exact ⟨rfl, Or.inl rfl⟩

/-- A step of a producer. -/
theorem sound_stepProducer (h : Sound s drains first capacity todo w)
    (hi : s.producers[i]? = some p) (htime : p.view.IsTimely s.changes) {chance : Chance}
    (hstep : stepProducer s i p chance = some t) :
    ∃ w', Sound t drains first capacity todo w' := by
  rcases books_stepProducer h.books hi htime hstep with ⟨w', hbooks, hlapsed, hpending⟩
  rcases worker_stepProducer hstep with ⟨hdrains, hworker⟩
  have hcloser := (delivered_stepProducer hstep).2
  have hmem : p ∈ s.producers.toList := Array.mem_toList_iff.2 (Array.mem_of_getElem? hi)
  -- once no producer is admitted nothing comes into the queue
  have hvacated : 5 ≤ s.closer.rank → w'.pending = w.pending := fun hrank =>
    hpending (h.control.vacated hrank p hmem)
  have hconsumer : t.worker.consumer = s.worker.consumer ∧
      (t.worker = .finished → s.worker = .finished) ∧
      (∀ b, t.worker ≠ .consume b .exhausted) := by
    rcases hworker with hworker | ⟨hidle, hworker⟩
    · rw [hworker]
      exact ⟨rfl, id, h.worker_ne⟩
    · rw [h.control.absent_of_idle hidle]
      rcases hworker with hworker | hworker <;> rw [hworker] <;> exact ⟨rfl, by simp, by simp⟩
  refine ⟨w', ⟨control_stepProducer h.control hi hstep, ?_, hdrains.trans h.drains_eq,
    hconsumer.2.2, ?_, ?_, ?_, ?_, ?_⟩⟩
  · rw [State.consumer, hcloser, hconsumer.1]
    exact hbooks
  · rw [hcloser]
    exact h.closer_ne
  · rw [hcloser, hlapsed]
    exact h.undiscarded
  · intro hfinished hd
    have hs := hconsumer.2.1 hfinished
    have hrunning := h.control.worker_stopping (by rw [hs]; rfl)
    have hrank := h.control.stopping hrunning
    rw [hvacated (by omega)]
    exact h.drained hs hd
  · intro hpresent hd
    rw [hlapsed]
    rcases hworker with hworker | ⟨hidle, -⟩
    · exact h.delivered (hworker ▸ hpresent) hd
    · refine h.undiscarded ?_
      by_contra hhigh
      have hstopped := h.control.stopped_iff.2 (by omega)
      rw [hidle] at hstopped
      cases hstopped
  · rw [hcloser]
    intro hrank
    rw [hvacated (by omega)]
    exact h.emptied hrank

/-- A step of the worker. -/
theorem sound_stepWorker (h : Sound s drains first capacity todo w) {chance : Chance}
    (hstep : stepWorker s chance = some t) : ∃ w', Sound t drains first capacity todo w' := by
  have hcontrol := control_stepWorker h.control hstep
  cases hworker : s.worker with
  | absent =>
      rw [stepWorker, hworker] at hstep
      cases hstep
  | checkRunning =>
      rcases h.control.consumer_of_worker (by simp [hworker]) (by simp [hworker]) with
        ⟨hcloser, hdiscards, hlow⟩
      have hlapsed := h.undiscarded hlow
      have hbooks := h.books
      have hconsumer : s.consumer = .exhausted := by
        rw [State.consumer, hcloser, hworker]
        rfl
      rw [stepWorker, hworker] at hstep
      cases hstep
      refine ⟨w, hcontrol, ?_, h.drains_eq, ?_, h.closer_ne, h.undiscarded, ?_,
        fun _ _ => hlapsed, h.emptied⟩
      · rw [hconsumer] at hbooks
        refine hbooks.rest rfl rfl rfl rfl rfl ?_
        simp only [State.consumer, hcloser, Option.getD_none]
        repeat' split
        all_goals rfl
      · intro b
        dsimp only
        repeat' split
        all_goals simp
      · intro hfinished hd
        rw [h.drains_eq, hd] at hfinished
        dsimp only at hfinished
        split at hfinished
        · cases hfinished
        · cases hfinished
  | consume draining phase =>
      rcases h.control.consumer_of_worker (by simp [hworker]) (by simp [hworker]) with
        ⟨hcloser, hdiscards, hlow⟩
      have hbooks := h.books
      have hconsumer : s.consumer = phase := by
        rw [State.consumer, hcloser, hworker]
        rfl
      rw [hconsumer, hdiscards] at hbooks
      rcases books_stepDeliver hbooks (h.undiscarded hlow) chance with
        ⟨w', hnext, hlapsed, hpending, hempty⟩
      rw [stepWorker, hworker] at hstep
      have hs := sameControl_stepDeliver s chance phase
      rcases hmove : stepDeliver s chance phase with ⟨next, u⟩
      simp only [hmove] at hstep hs hnext hempty
      cases hstep
      have hcloser' : u.closer = s.closer := hs.closer
      refine ⟨w', hcontrol, ?_, hs.drains.trans h.drains_eq,
        fun b => WorkerPhase.afterDeliver_ne draining b next, ?_, fun _ => hlapsed, ?_,
        fun _ _ => hlapsed, ?_⟩
      · simp only [State.consumer, hcloser', hcloser, Option.getD_none, hdiscards]
        rcases WorkerPhase.consumer_afterDeliver draining next with heq | ⟨hrest, hrest'⟩
        · rw [heq]
          exact hnext.congr rfl rfl rfl rfl
        · exact hnext.rest rfl rfl rfl rfl hrest hrest'
      · dsimp only
        rw [hcloser']
        exact h.closer_ne
      · intro hfinished hd
        refine hempty ?_ (WorkerPhase.afterDeliver_eq_finished hfinished)
        rintro rfl
        exact h.worker_ne draining hworker
      · dsimp only
        rw [hcloser']
        omega
  | finished =>
      rw [stepWorker, hworker] at hstep
      cases hstep

/-- The thread that shuts down goes on and does not consume. -/
theorem Sound.closer (h : Sound s drains first capacity todo w) (hcontrol : Control t)
    (hproducers : t.producers = s.producers) (hstock : t.stock = s.stock)
    (hstats : t.shared.stats = s.shared.stats) (hreturned : t.returned = s.returned)
    (hdrains : t.drains = s.drains) (hworker : t.worker = s.worker)
    (hconsumer : t.consumer = s.consumer ∧ t.closer.discards = s.closer.discards ∨
      s.consumer.isResting = true ∧ t.consumer.isResting = true)
    (hne : t.closer ≠ .discard .exhausted) (hlow : t.closer.rank < 8 → s.closer.rank < 8)
    (hhigh : 9 ≤ t.closer.rank → 9 ≤ s.closer.rank) : Sound t drains first capacity todo w where
  control := hcontrol
  books := by
    rcases hconsumer with ⟨hconsumer, hdiscards⟩ | ⟨hrest, hrest'⟩
    · rw [hconsumer, hdiscards]
      exact h.books.congr hproducers hstock hstats hreturned
    · exact h.books.rest hproducers hstock hstats hreturned hrest hrest'
  drains_eq := hdrains.trans h.drains_eq
  worker_ne := by
    rw [hworker]
    exact h.worker_ne
  closer_ne := hne
  undiscarded := fun hrank => h.undiscarded (hlow hrank)
  drained := by
    rw [hworker]
    exact h.drained
  delivered := by
    rw [hworker]
    exact h.delivered
  emptied := fun hrank => h.emptied (hhigh hrank)

/-- The same between two phases in which it consumes nothing. -/
theorem Sound.closer_keep (h : Sound s drains first capacity todo w) (hcontrol : Control t)
    (m n : CloserPhase) (hm : s.closer = m) (hn : t.closer = n)
    (hproducers : t.producers = s.producers) (hstock : t.stock = s.stock)
    (hstats : t.shared.stats = s.shared.stats) (hreturned : t.returned = s.returned)
    (hdrains : t.drains = s.drains) (hworker : t.worker = s.worker)
    (hconsumer : n.consumer? = m.consumer?)
    (hdiscards : m.discards = false) (hdiscards' : n.discards = false)
    (hlow : n.rank < 8 → m.rank < 8) (hhigh : 9 ≤ n.rank → 9 ≤ m.rank) :
    Sound t drains first capacity todo w := by
  refine h.closer hcontrol hproducers hstock hstats hreturned hdrains hworker (Or.inl ⟨?_, ?_⟩) ?_
    (by rwa [hm, hn]) (by rwa [hm, hn])
  · rw [State.consumer, State.consumer, hm, hn, hworker, hconsumer]
  · rw [hm, hn, hdiscards, hdiscards']
  · rw [hn]
    rintro rfl
    cases hdiscards'

/-- A step of the thread that shuts down. -/
theorem sound_stepCloser (h : Sound s drains first capacity todo w) {chance : Chance}
    (hstep : stepCloser s chance = some t) : ∃ w', Sound t drains first capacity todo w' := by
  have hcontrol := control_stepCloser h.control hstep
  cases hcloser : s.closer with
  | idle =>
      rw [stepCloser, hcloser] at hstep
      cases hstep
      exact ⟨w, h.closer_keep hcontrol .idle .lock hcloser rfl rfl rfl rfl rfl rfl rfl
        rfl rfl rfl (by decide) (by decide)⟩
  | lock =>
      rw [stepCloser, hcloser] at hstep
      dsimp only at hstep
      split at hstep
      · cases hstep
        exact ⟨w, h.closer_keep hcontrol .lock .refuse hcloser rfl rfl rfl rfl rfl rfl
          rfl rfl rfl rfl (by decide) (by decide)⟩
      · cases hstep
  | refuse =>
      rw [stepCloser, hcloser] at hstep
      cases hstep
      exact ⟨w, h.closer_keep hcontrol .refuse .markStarted hcloser rfl rfl rfl rfl rfl rfl rfl
        rfl rfl rfl (by decide) (by decide)⟩
  | markStarted =>
      rw [stepCloser, hcloser] at hstep
      cases hstep
      exact ⟨w, h.closer_keep hcontrol .markStarted .await hcloser rfl rfl rfl rfl rfl rfl rfl
        rfl rfl rfl (by decide) (by decide)⟩
  | await =>
      rw [stepCloser, hcloser] at hstep
      dsimp only at hstep
      split at hstep
      · cases hstep
        exact ⟨w, h.closer_keep hcontrol .await .stop hcloser rfl rfl rfl rfl rfl rfl
          rfl rfl rfl rfl (by decide) (by decide)⟩
      · cases hstep
  | stop =>
      rw [stepCloser, hcloser] at hstep
      cases hstep
      exact ⟨w, h.closer_keep hcontrol .stop .claim hcloser rfl rfl rfl rfl rfl rfl rfl
        rfl rfl rfl (by decide) (by decide)⟩
  | claim =>
      rw [stepCloser, hcloser] at hstep
      cases hstep
      -- if it consumes from now on there is no worker that does
      have hrest : ∀ phase, s.worker = .absent ∨ s.worker = .finished →
          phase = .drain (.pop .start) ∨ phase = .discard (.pop .start) →
          Control { s with stage := .stopped, closer := phase } →
          Sound { s with stage := .stopped, closer := phase } drains first capacity todo w := by
        intro phase hgone hphase hcontrol
        refine h.closer hcontrol rfl rfl rfl rfl rfl rfl (Or.inr ⟨?_, ?_⟩)
          ?_ ?_ ?_
        · rw [State.consumer, hcloser]
          rcases hgone with hgone | hgone <;> rw [hgone] <;> rfl
        · rcases hphase with rfl | rfl <;> rfl
        · rcases hphase with rfl | rfl <;> simp
        · rw [hcloser]
          exact fun _ => by decide
        · rcases hphase with rfl | rfl <;> simp [CloserPhase.rank]
      cases hstage : s.stage with
      | idle =>
          have hgone : s.worker = .absent ∨ s.worker = .finished :=
            Or.inl (h.control.absent_of_idle hstage)
          simp only [hstage] at hcontrol ⊢
          by_cases hd : s.drains = true
          · rw [if_pos hd] at hcontrol ⊢
            exact ⟨w, hrest _ hgone (Or.inl rfl) hcontrol⟩
          · rw [if_neg hd] at hcontrol ⊢
            exact ⟨w, hrest _ hgone (Or.inr rfl) hcontrol⟩
      | running =>
          simp only [hstage] at hcontrol ⊢
          exact ⟨w, h.closer_keep hcontrol .claim .join hcloser rfl rfl rfl rfl rfl rfl
            rfl rfl rfl rfl (by decide) (by decide)⟩
      | failed =>
          simp only [hstage] at hcontrol ⊢
          have hgone : s.worker = .absent ∨ s.worker = .finished := hcontrol.gone (Nat.le_refl 8)
          exact ⟨w, hrest _ hgone (Or.inr rfl) hcontrol⟩
      | stopped =>
          simp only [hstage] at hcontrol ⊢
          have hgone : s.worker = .absent ∨ s.worker = .finished := hcontrol.gone (Nat.le_refl 8)
          exact ⟨w, hrest _ hgone (Or.inr rfl) hcontrol⟩
  | join =>
      rw [stepCloser, hcloser] at hstep
      dsimp only at hstep
      split at hstep
      · rename_i hfinished
        cases hstep
        refine ⟨w, h.closer hcontrol rfl rfl rfl rfl rfl rfl (Or.inr ?_)
          ?_ ?_ ?_⟩
        · rw [State.consumer, hcloser, hfinished]
          exact ⟨rfl, rfl⟩
        all_goals simp [CloserPhase.rank]
      · cases hstep
  | drain phase =>
      have habsent := h.control.absent_of_drain phase hcloser
      have hbooks := h.books
      have hconsumer : s.consumer = phase := by
        rw [State.consumer, hcloser]
        rfl
      rw [hconsumer, hcloser] at hbooks
      rcases books_stepDeliver hbooks (h.undiscarded (by rw [hcloser]; exact Nat.lt_succ_self 7))
        chance with ⟨w', hnext, hlapsed, -, -⟩
      rw [stepCloser, hcloser] at hstep
      have hs := sameControl_stepDeliver s chance phase
      rcases hmove : stepDeliver s chance phase with ⟨next, u⟩
      simp only [hmove] at hstep hs hnext
      cases hstep
      have hworker : u.worker = .absent := hs.worker.trans habsent
      refine ⟨w', hcontrol, ?_, hs.drains.trans h.drains_eq, by simp [hworker], ?_,
        fun _ => hlapsed, by simp [hworker], by simp [hworker], fun hrank => ?_⟩
      · rcases CloserPhase.afterDeliver_cases next with ⟨rfl, hafter⟩ | hafter <;>
          rw [State.consumer, hafter]
        · exact hnext.rest rfl rfl rfl rfl rfl rfl
        · exact hnext.congr rfl rfl rfl rfl
      · rcases CloserPhase.afterDeliver_cases next with ⟨rfl, hafter⟩ | hafter <;>
          simp [hafter]
      · exact absurd (CloserPhase.rank_afterDeliver next).2 (Nat.not_le_of_lt hrank)
  | discard phase =>
      have hgone := h.control.gone (by rw [hcloser]; exact Nat.le_refl 8)
      have hbooks := h.books
      have hconsumer : s.consumer = phase := by
        rw [State.consumer, hcloser]
        rfl
      rw [hconsumer, hcloser] at hbooks
      rcases books_stepDiscard hbooks chance with ⟨w', hnext, hkeep, hempty⟩
      rw [stepCloser, hcloser] at hstep
      have hs := sameControl_stepDiscard s chance phase
      rcases hmove : stepDiscard s chance phase with ⟨next, u⟩
      simp only [hmove] at hstep hs hnext hempty
      cases hstep
      have hworker : u.worker = s.worker := hs.worker
      have hlow := (CloserPhase.rank_afterDiscard next).1
      refine ⟨w', hcontrol, ?_, hs.drains.trans h.drains_eq, ?_, ?_,
        fun hrank => absurd hrank (Nat.not_lt_of_le hlow), ?_, ?_, fun hrank => ?_⟩
      · rcases CloserPhase.afterDiscard_cases next with ⟨rfl, hafter⟩ | ⟨-, hafter⟩ <;>
          rw [State.consumer, hafter]
        · refine hnext.rest rfl rfl rfl rfl rfl ?_
          dsimp only
          rw [hworker]
          rcases hgone with hgone | hgone <;> rw [hgone] <;> rfl
        · exact hnext.congr rfl rfl rfl rfl
      · dsimp only
        rw [hworker]
        exact h.worker_ne
      · rcases CloserPhase.afterDiscard_cases next with ⟨rfl, hafter⟩ | ⟨hne, hafter⟩
        · simp [hafter]
        · simpa [hafter] using hne
      · dsimp only
        rw [hworker]
        exact fun hfinished hd => (hkeep (h.drained hfinished hd)).1
      · dsimp only
        rw [hworker]
        intro hpresent hd
        -- the worker left nothing to discard
        have hfinished := hgone.resolve_left hpresent
        rw [(hkeep (h.drained hfinished hd)).2]
        exact h.delivered hpresent hd
      · rcases CloserPhase.afterDiscard_cases next with ⟨rfl, -⟩ | ⟨-, hafter⟩
        · refine hempty ?_ rfl
          rintro rfl
          exact h.closer_ne hcloser
        · dsimp only at hrank
          rw [hafter] at hrank
          exact absurd hrank (Nat.not_succ_le_self 8)
  | unlock =>
      rw [stepCloser, hcloser] at hstep
      cases hstep
      exact ⟨w, h.closer_keep hcontrol .unlock .returned hcloser rfl rfl rfl rfl rfl rfl rfl
        rfl rfl rfl (by decide) (by decide)⟩
  | returned =>
      rw [stepCloser, hcloser] at hstep
      cases hstep

/-- A step of any thread keeps handshake and books. -/
theorem sound_step (h : Sound s drains first capacity todo w) {thread : Thread} {chance : Chance}
    (htime : ∀ (i : Nat) (p : Producer α), thread = .producer i → s.producers[i]? = some p →
      p.view.IsTimely s.changes)
    (hstep : step? s thread chance = some t) : ∃ w', Sound t drains first capacity todo w' := by
  cases thread with
  | producer i =>
      simp only [step?] at hstep
      split at hstep
      · cases hstep
      · rename_i p hi
        exact sound_stepProducer h hi (htime i p rfl hi) hstep
  | worker => exact sound_stepWorker h hstep
  | closer => exact sound_stepCloser h hstep

end EngineThreads

end EventLog
