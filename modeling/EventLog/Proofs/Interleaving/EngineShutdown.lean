import EventLog.Proofs.Interleaving.EngineHandshake

/-!
# The worker and the shutdown

The worker does not go on once it was told so, and the thread that shuts down goes from stage to
stage.  It goes on to the queue only where no worker is left, so nothing is delivered once it
returned.

Main results:

- `EngineThreads.control_stepWorker` and `EngineThreads.control_stepCloser`: steps of the worker and
  of the thread that shuts down keep the handshake.
- `EngineThreads.control_step`: so does a step of any thread.
- `EngineThreads.delivered_run_of_returned`: nothing is delivered after the shutdown returned.
-/

namespace EventLog

namespace EngineThreads

variable {α : Type} {s t : State α} {i : Nat} {p : Producer α}

/-! ## Steps of the consumers -/

/-- Destroying a payload leaves the flags. -/
theorem flags_destroyIn (s : State α) (index : Nat) (delivered : List α) :
    State.flags { s with shared := s.shared.destroyIn index, delivered } = s.flags := by
  unfold Shared.destroyIn
  split <;> rfl

/-- A step of a delivery touches nothing that the handshake needs. -/
theorem sameControl_stepDeliver (s : State α) (chance : Chance) (phase : ConsumerPhase) :
    SameControl s (stepDeliver s chance phase).2 := by
  cases phase with
  | handle index => exact sameControl rfl (flags_destroyIn s index _)
  | _ => exact sameControl rfl rfl

/-- Nor does a step of a discard. -/
theorem sameControl_stepDiscard (s : State α) (chance : Chance) (phase : ConsumerPhase) :
    SameControl s (stepDiscard s chance phase).2 := by
  cases phase with
  | handle index => exact sameControl rfl (flags_destroyIn s index s.delivered)
  | _ => exact sameControl rfl rfl

/-- The worker goes on. -/
theorem Control.worker (h : Control s) (hs : SameControl s { t with worker := s.worker })
    (habsent : s.worker ≠ .absent) (hfinished : s.worker ≠ .finished)
    (hstop : t.worker.isStopping = true → s.shared.running = false) : Control t := by
  have hproducers : t.producers = s.producers := hs.producers
  have hcloser : t.closer = s.closer := hs.closer
  have hstage : t.stage = s.stage := hs.stage
  have howner : t.owner = s.owner := hs.owner
  have hinside : t.inside = s.inside := hs.inside
  have haccepting : t.shared.accepting = s.shared.accepting := hs.accepting
  have hrunning : t.shared.running = s.shared.running := hs.running
  exact {
    inside_eq := by rw [hinside, hproducers, h.inside_eq]
    producer_owns := by
      rw [hproducers, howner]
      exact h.producer_owns
    closer_owns := by
      rw [hcloser, howner]
      exact h.closer_owns
    refused := by
      rw [hcloser, haccepting]
      exact h.refused
    vacated := by
      rw [hcloser, hproducers]
      exact h.vacated
    stopping := by
      rw [hrunning, hcloser]
      exact h.stopping
    worker_stopping := by
      rw [hrunning]
      exact hstop
    absent_of_idle := fun hidle => absurd (h.absent_of_idle (hstage ▸ hidle)) habsent
    concluding := by
      rw [hproducers, hstage]
      exact h.concluding
    failed := by
      intro hfailed _
      rw [hproducers]
      exact h.failed (hstage ▸ hfailed) habsent
    stopped_iff := by
      rw [hstage, hcloser]
      exact h.stopped_iff
    absent_of_drain := fun phase hphase =>
      absurd (h.absent_of_drain phase (hcloser ▸ hphase)) habsent
    gone := by
      intro hrank
      rcases h.gone (hcloser ▸ hrank) with hgone | hgone
      · exact absurd hgone habsent
      · exact absurd hgone hfinished }

/-- A step of the worker. -/
theorem control_stepWorker (h : Control s) {chance : Chance}
    (hstep : stepWorker s chance = some t) : Control t := by
  cases hworker : s.worker with
  | absent =>
      rw [stepWorker, hworker] at hstep
      cases hstep
  | checkRunning =>
      rw [stepWorker, hworker] at hstep
      cases hstep
      refine h.worker (sameControl rfl rfl) (by simp [hworker])
        (by simp [hworker]) ?_
      cases hrunning : s.shared.running with
      | true => intro hstop; cases hstop
      | false => exact fun _ => rfl
  | consume draining phase =>
      rw [stepWorker, hworker] at hstep
      have hs := sameControl_stepDeliver s chance phase
      rcases hnext : stepDeliver s chance phase with ⟨next, u⟩
      simp only [hnext] at hstep hs
      cases hstep
      refine h.worker { hs with worker := rfl } (by simp [hworker]) (by simp [hworker]) ?_
      intro hstop
      refine h.worker_stopping ?_
      rw [hworker]
      exact WorkerPhase.isStopping_afterDeliver hstop
  | finished =>
      rw [stepWorker, hworker] at hstep
      cases hstep

/-! ## Steps of the shutdown -/

/-- The thread that shuts down goes on. -/
theorem Control.closer (h : Control s) (m n : Nat) (hm : s.closer.rank = m)
    (hn : t.closer.rank = n) (hmn : m ≤ n) (hproducers : t.producers = s.producers)
    (hinside : t.inside = s.inside) (hworker : t.worker = s.worker)
    (howner : t.owner = s.owner ∨ s.owner = none ∨ s.owner = some .closer)
    (howns : 2 ≤ n → n ≤ 9 → t.owner = some .closer)
    (hrefused : 3 ≤ n → t.shared.accepting = false)
    (hvacated : 5 ≤ n → 5 ≤ m ∨ s.inside = 0)
    (hrunning : t.shared.running = s.shared.running ∨ t.shared.running = false ∧ 6 ≤ n)
    (hstage : t.stage = s.stage ∨ t.stage = .stopped ∧ s.owner = some .closer)
    (hstopped : t.stage = .stopped ↔ 7 ≤ n)
    (hdrain : ∀ phase, t.closer = .drain phase → s.worker = .absent)
    (hgone : 8 ≤ n → s.worker = .absent ∨ s.worker = .finished) : Control t where
  inside_eq := by rw [hinside, hproducers, h.inside_eq]
  producer_owns := by
    intro j w hw hlock
    rw [hproducers] at hw
    have hj := h.producer_owns j w hw hlock
    rcases howner with heq | hnone | hself
    · rw [heq, hj]
    · rw [hnone] at hj
      cases hj
    · rw [hself] at hj
      cases hj
  closer_owns := by
    rw [hn]
    exact howns
  refused := by
    rw [hn]
    exact hrefused
  vacated := by
    intro hhigh w hw
    rw [hproducers] at hw
    rcases hvacated (hn ▸ hhigh) with hlow | hzero
    · exact h.vacated (hm ▸ hlow) w hw
    · cases hadmitted : w.phase.isAdmitted with
      | false => rfl
      | true =>
          have hcount := h.inside_eq
          rw [hzero] at hcount
          exact absurd (ProducerPhase.isInside_of_isAdmitted hadmitted)
            (List.countP_eq_zero.1 hcount.symm w hw)
  stopping := by
    intro hstop
    rcases hrunning with heq | ⟨-, hhigh⟩
    · have hlow := h.stopping (heq ▸ hstop)
      omega
    · rw [hn]
      exact hhigh
  worker_stopping := by
    intro hstop
    rw [hworker] at hstop
    rcases hrunning with heq | ⟨hfalse, -⟩
    · rw [heq]
      exact h.worker_stopping hstop
    · exact hfalse
  absent_of_idle := by
    intro hidle
    rcases hstage with heq | ⟨hstop, -⟩
    · rw [hworker]
      exact h.absent_of_idle (heq ▸ hidle)
    · rw [hstop] at hidle
      cases hidle
  concluding := by
    intro j w hw hconcluding
    rw [hproducers] at hw
    rcases hstage with heq | ⟨-, hself⟩
    · rw [heq]
      exact h.concluding j w hw hconcluding
    · have hj := h.producer_owns j w hw (ProducerPhase.hasLock_of_isConcluding hconcluding)
      rw [hself] at hj
      cases hj
  failed := by
    intro hfailed hpresent
    rw [hproducers]
    rcases hstage with heq | ⟨hstop, -⟩
    · exact h.failed (heq ▸ hfailed) (hworker ▸ hpresent)
    · rw [hstop] at hfailed
      cases hfailed
  stopped_iff := by
    rw [hn]
    exact hstopped
  absent_of_drain := by
    rw [hworker]
    exact hdrain
  gone := by
    rw [hn, hworker]
    exact hgone

/-- While the thread that shuts down has the lock a failed start has left no worker. -/
theorem Control.absent_of_failed (h : Control s) (hstage : s.stage = .failed)
    (howner : s.owner = some .closer) : s.worker = .absent := by
  by_contra hworker
  rcases h.failed hstage hworker with ⟨j, w, hw, hstarting⟩
  have hj := h.producer_owns j w hw
    (ProducerPhase.hasLock_of_isConcluding (ProducerPhase.isConcluding_of_isStarting hstarting))
  rw [howner] at hj
  cases hj

/-- The thread that shuts down goes on after it claimed the target. -/
theorem Control.closer_keep (h : Control s) (m n : Nat) (hm : s.closer.rank = m)
    (hn : t.closer.rank = n) (hmn : m ≤ n) (hlow : 7 ≤ m) (hhigh : n ≤ 9)
    (hs : SameControl s { t with closer := s.closer })
    (hdrain : ∀ phase, t.closer = .drain phase → s.worker = .absent)
    (hgone : 8 ≤ n → s.worker = .absent ∨ s.worker = .finished) : Control t := by
  have howner : t.owner = s.owner := hs.owner
  have haccepting : t.shared.accepting = s.shared.accepting := hs.accepting
  have hstage : t.stage = s.stage := hs.stage
  refine h.closer m n hm hn hmn hs.producers hs.inside hs.worker (Or.inl howner) ?_ ?_
    (fun _ => Or.inl (by omega)) (Or.inl hs.running) (Or.inl hstage) ?_ hdrain hgone
  · intro _ _
    rw [howner]
    exact h.closer_owns (by omega) (by omega)
  · intro _
    rw [haccepting]
    exact h.refused (by omega)
  · rw [hstage, h.stopped_iff]
    omega

/-- A step of the thread that shuts down. -/
theorem control_stepCloser (h : Control s) {chance : Chance}
    (hstep : stepCloser s chance = some t) : Control t := by
  have hrank : ∀ {phase}, s.closer = phase → s.closer.rank = phase.rank :=
    fun hphase => congrArg CloserPhase.rank hphase
  have hunclaimed : s.closer.rank ≤ 6 → s.stage ≠ .stopped := by
    intro hlow hstopped
    have hclaimed := h.stopped_iff.1 hstopped
    omega
  have howner := h.closer_owns
  have hrefused := h.refused
  cases hcloser : s.closer with
  | idle =>
      rw [stepCloser, hcloser] at hstep
      cases hstep
      have hstopped := hunclaimed (by rw [hcloser]; decide)
      refine h.closer 0 1 (hrank hcloser) rfl (by decide) rfl rfl rfl (Or.inl rfl) ?_ ?_ ?_
        (Or.inl rfl) (Or.inl rfl) ?_ ?_ ?_ <;> simp [hstopped]
  | lock =>
      rw [stepCloser, hcloser] at hstep
      dsimp only at hstep
      split at hstep
      · rename_i hfree
        cases hstep
        have hstopped := hunclaimed (by rw [hcloser]; decide)
        refine h.closer 1 2 (hrank hcloser) rfl (by decide) rfl rfl rfl (Or.inr (Or.inl hfree))
          (fun _ _ => rfl) ?_ ?_ (Or.inl rfl) (Or.inl rfl) ?_ ?_ ?_ <;> simp [hstopped]
      · cases hstep
  | refuse =>
      rw [stepCloser, hcloser] at hstep
      cases hstep
      have hstopped := hunclaimed (by rw [hcloser]; decide)
      rw [hcloser] at howner
      refine h.closer 2 3 (hrank hcloser) rfl (by decide) rfl rfl rfl (Or.inl rfl)
        (fun _ _ => howner (by decide) (by decide)) (fun _ => rfl) ?_ (Or.inl rfl) (Or.inl rfl)
        ?_ ?_ ?_ <;> simp [hstopped]
  | markStarted =>
      rw [stepCloser, hcloser] at hstep
      cases hstep
      have hstopped := hunclaimed (by rw [hcloser]; decide)
      rw [hcloser] at howner hrefused
      refine h.closer 3 4 (hrank hcloser) rfl (by decide) rfl rfl rfl (Or.inl rfl)
        (fun _ _ => howner (by decide) (by decide)) (fun _ => hrefused (by decide)) ?_
        (Or.inl rfl) (Or.inl rfl) ?_ ?_ ?_ <;> simp [hstopped]
  | await =>
      rw [stepCloser, hcloser] at hstep
      dsimp only at hstep
      split at hstep
      · rename_i hzero
        cases hstep
        have hstopped := hunclaimed (by rw [hcloser]; decide)
        rw [hcloser] at howner hrefused
        refine h.closer 4 5 (hrank hcloser) rfl (by decide) rfl rfl rfl (Or.inl rfl)
          (fun _ _ => howner (by decide) (by decide)) (fun _ => hrefused (by decide))
          (fun _ => Or.inr hzero) (Or.inl rfl) (Or.inl rfl) ?_ ?_ ?_ <;> simp [hstopped]
      · cases hstep
  | stop =>
      rw [stepCloser, hcloser] at hstep
      cases hstep
      have hstopped := hunclaimed (by rw [hcloser]; decide)
      rw [hcloser] at howner hrefused
      refine h.closer 5 6 (hrank hcloser) rfl (by decide) rfl rfl rfl (Or.inl rfl)
        (fun _ _ => howner (by decide) (by decide)) (fun _ => hrefused (by decide))
        (fun _ => Or.inl (by decide)) (Or.inr ⟨rfl, by decide⟩) (Or.inl rfl) ?_ ?_ ?_ <;>
        simp [hstopped]
  | claim =>
      rw [stepCloser, hcloser] at hstep
      cases hstep
      have hstopped := hunclaimed (by rw [hcloser]; decide)
      rw [hcloser] at howner hrefused
      -- the stage and, for an engine that was never started, the settings say what comes next
      have hclaim : ∀ (n : Nat) (next : CloserPhase), next.rank = n → 7 ≤ n → n ≤ 9 →
          (8 ≤ n ∨ (∃ phase, next = .drain phase) → s.worker = .absent) →
          Control { s with stage := .stopped, closer := next } := by
        intro n next hn hlow hhigh habsent
        exact h.closer 6 n (hrank hcloser) hn (by omega) rfl rfl rfl (Or.inl rfl)
          (fun _ _ => howner (by decide) (by decide)) (fun _ => hrefused (by decide))
          (fun _ => Or.inl (by decide)) (Or.inl rfl)
          (Or.inr ⟨rfl, howner (by decide) (by decide)⟩) (by simp [hlow])
          (fun phase hphase => habsent (Or.inr ⟨phase, hphase⟩))
          (fun hn => Or.inl (habsent (Or.inl hn)))
      cases hstage : s.stage with
      | idle =>
          have habsent := h.absent_of_idle hstage
          cases hdrains : s.drains with
          | true =>
              have hnext := hclaim 7 (.drain (.pop .start)) rfl (by decide) (by decide)
                fun _ => habsent
              simpa [hdrains] using hnext
          | false =>
              have hnext := hclaim 8 (.discard (.pop .start)) rfl (by decide) (by decide)
                fun _ => habsent
              simpa [hdrains] using hnext
      | running => exact hclaim 7 .join rfl (by decide) (by decide) (by simp)
      | failed =>
          have habsent := h.absent_of_failed hstage (howner (by decide) (by decide))
          exact hclaim 8 (.discard (.pop .start)) rfl (by decide) (by decide) fun _ => habsent
      | stopped => exact absurd hstage hstopped
  | join =>
      rw [stepCloser, hcloser] at hstep
      dsimp only at hstep
      split at hstep
      · rename_i hfinished
        cases hstep
        exact h.closer_keep 7 8 (hrank hcloser) rfl (by decide) (by decide) (by decide)
          (sameControl rfl rfl) (fun _ hdrain => by cases hdrain)
          (fun _ => Or.inr hfinished)
      · cases hstep
  | drain phase =>
      rw [stepCloser, hcloser] at hstep
      have hs := sameControl_stepDeliver s chance phase
      rcases hnext : stepDeliver s chance phase with ⟨next, u⟩
      simp only [hnext] at hstep hs
      cases hstep
      have habsent := h.absent_of_drain phase hcloser
      have hrank' := CloserPhase.rank_afterDeliver next
      exact h.closer_keep 7 _ (hrank hcloser) rfl hrank'.1 (by decide)
        (Nat.le_trans hrank'.2 (by decide)) { hs with closer := rfl } (fun _ _ => habsent)
        (fun _ => Or.inl habsent)
  | discard phase =>
      rw [stepCloser, hcloser] at hstep
      have hs := sameControl_stepDiscard s chance phase
      rcases hnext : stepDiscard s chance phase with ⟨next, u⟩
      simp only [hnext] at hstep hs
      cases hstep
      have hgone := h.gone (by rw [hcloser]; exact Nat.le_refl 8)
      have hrank' := CloserPhase.rank_afterDiscard next
      exact h.closer_keep 8 _ (hrank hcloser) rfl hrank'.1 (by decide) hrank'.2
        { hs with closer := rfl }
        (fun phase hdrain => absurd hdrain (CloserPhase.afterDiscard_ne_drain next phase))
        (fun _ => hgone)
  | unlock =>
      rw [stepCloser, hcloser] at hstep
      cases hstep
      have hgone := h.gone (by rw [hcloser]; decide)
      have hstopped := h.stopped_iff.2 (by rw [hcloser]; decide)
      rw [hcloser] at howner hrefused
      exact h.closer 9 10 (hrank hcloser) rfl (by decide) rfl rfl rfl
        (Or.inr (Or.inr (howner (by decide) (by decide)))) (fun _ hhigh => absurd hhigh (by decide))
        (fun _ => hrefused (by decide)) (fun _ => Or.inl (by decide)) (Or.inl rfl) (Or.inl rfl)
        (by simp [hstopped]) (fun _ hdrain => by cases hdrain) (fun _ => hgone)
  | returned =>
      rw [stepCloser, hcloser] at hstep
      cases hstep

/-! ## Runs -/

/-- A step of any thread keeps the handshake. -/
theorem control_step (h : Control s) {thread : Thread} {chance : Chance}
    (hstep : step? s thread chance = some t) : Control t := by
  cases thread with
  | producer i =>
      simp only [step?] at hstep
      split at hstep
      · cases hstep
      · rename_i p hi
        exact control_stepProducer h hi hstep
  | worker => exact control_stepWorker h hstep
  | closer => exact control_stepCloser h hstep

/-- The state after a schedule of steps; `none` if one of them cannot be taken. -/
def run? : State α → List (Thread × Chance) → Option (State α)
  | s, [] => some s
  | s, (thread, chance) :: schedule =>
    match step? s thread chance with
    | none => none
    | some t => run? t schedule

/-- A producer delivers nothing. -/
theorem delivered_stepProducer {chance : Chance} (hstep : stepProducer s i p chance = some t) :
    t.delivered = s.delivered ∧ t.closer = s.closer := by
  unfold stepProducer at hstep
  dsimp only at hstep
  repeat' split at hstep
  all_goals cases hstep
  all_goals exact ⟨rfl, rfl⟩

/-- Once the shutdown returned a step delivers nothing. -/
theorem delivered_step_of_returned (h : Control s) (hreturned : s.closer = .returned)
    {thread : Thread} {chance : Chance} (hstep : step? s thread chance = some t) :
    t.delivered = s.delivered ∧ t.closer = .returned := by
  cases thread with
  | producer i =>
      simp only [step?] at hstep
      split at hstep
      · cases hstep
      · rcases delivered_stepProducer hstep with ⟨hdelivered, hcloser⟩
        exact ⟨hdelivered, hcloser.trans hreturned⟩
  | worker =>
      have hgone := h.gone (by rw [hreturned]; decide)
      simp only [step?, stepWorker] at hstep
      rcases hgone with hgone | hgone
      · rw [hgone] at hstep
        cases hstep
      · rw [hgone] at hstep
        cases hstep
  | closer =>
      simp only [step?, stepCloser, hreturned] at hstep
      cases hstep

/-- Nothing is delivered after the shutdown returned. -/
theorem delivered_run_of_returned {schedule : List (Thread × Chance)} (h : Control s)
    (hreturned : s.closer = .returned) (hrun : run? s schedule = some t) :
    t.delivered = s.delivered := by
  induction schedule generalizing s with
  | nil =>
      cases hrun
      rfl
  | cons move schedule ih =>
      rcases move with ⟨thread, chance⟩
      rw [run?] at hrun
      cases hstep : step? s thread chance with
      | none =>
          rw [hstep] at hrun
          cases hrun
      | some u =>
          rw [hstep] at hrun
          rcases delivered_step_of_returned h hreturned hstep with ⟨hdelivered, hcloser⟩
          rw [ih (control_step h hstep) hcloser hrun, hdelivered]

end EngineThreads

end EventLog
