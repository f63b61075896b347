import EventLog.Proofs.Engine.Places
import EventLog.Rehearsal.Recorder

/-!
# Accounting for events

Once an engine is shut down every event that was offered to it is accounted for, whatever
happened on the way: it was delivered, or it was dropped, or it is the one event that the
worker did not survive.  The record of that event is the only one that is not free again.

Main results:

- `Ledger.balance_of_closed`: the balance of a ledger that is closed.
- `Engine.accounted_after_shutdown`: the balance of an engine after its shutdown.
-/

namespace EventLog

variable {α δ : Type}

namespace Ledger

variable [Payload α] [Target α δ] {l : Ledger α δ} {target : δ}

/-- A closed ledger counts every offered event as delivered, dropped or held for good, and
every record as free or held for good. -/
theorem balance_of_closed {t : Option δ} (hsound : l.Sound target) (hstage : l.stage = .closed t) :
    l.accepted.length + l.refused.length = l.stats.written + l.stats.dropped + l.held.length ∧
      l.free.length + l.held.length = l.capacity ∧ l.queued = [] := by
  have hfits := hsound.fits
  have hplaces := hsound.places
  have hflow := congrArg List.length hsound.flow
  simp only [Fits, hstage] at hfits
  simp only [hfits.1, List.map_nil, List.append_nil, List.length_append, List.length_map] at hflow
  rw [hfits.1, List.length_nil] at hplaces
  have hwritten : l.stats.written = l.delivered.length := rfl
  have hdropped : l.stats.dropped = l.refused.length + l.discarded.length := rfl
  refine ⟨by omega, by omega, hfits.1⟩

/-- A shutdown drops the accepted events that it neither delivers nor loses. -/
theorem dropped_shutdown (hsound : l.Sound target) (hopen : ∀ t, l.stage ≠ .closed t) :
    l.shutdown.stats.dropped = l.stats.dropped +
      (l.stats.enqueued - (l.shutdown.stats.written + l.shutdown.held.length)) := by
  have hfits := (sound_shutdown hsound).fits
  have hflow := congrArg List.length (sound_shutdown hsound).flow
  have hstage : l.shutdown.stage = .closed l.windDown.stage.target? := by
    rw [shutdown_of_ne_closed hopen]
    rfl
  simp only [Fits, hstage] at hfits
  rcases offers_step l .shutdown (by simp) with ⟨haccepted, hrefused⟩
  rw [step] at haccepted hrefused
  simp only [haccepted, hfits.1, List.map_nil, List.append_nil, List.length_append,
    List.length_map] at hflow
  have hdiscarded := hsound.discarded_of_open hopen
  simp only [Inventory.stats, hrefused, hdiscarded, List.length_nil]
  omega

/-- Nothing that a closed ledger holds is ever given back. -/
theorem held_run_of_closed {t : Option δ} (hstage : l.stage = .closed t)
    (actions : List (Engine.Action α)) : (l.run actions).held = l.held := by
  induction actions generalizing l t with
  | nil => rfl
  | cons action actions ih =>
      rcases (closed_step l action).2 (Or.inl ⟨t, hstage⟩) with ⟨u, hu⟩
      refine (ih hu).trans ?_
      have hidle : ∀ v, l.stage ≠ .idle v := by simp [hstage]
      cases action with
      | start fault => rw [step, start_of_ne_idle hidle]
      | enqueue fault a =>
          rw [step, enqueue, isUnnamable_of_ne_idle hidle, start_of_ne_idle hidle]
          exact Inventory.held_offer l.toInventory a
      | take => rw [step, take_of_ne_looking (by simp [hstage])]
      | deliver => rw [step, deliver_of_ne_holding (by simp [hstage])]
      | shutdown => rw [step, shutdown, hstage]
      | takeTarget =>
          simp only [step, takeTarget]
          split <;> rfl

end Ledger

/-! ## Engines -/

namespace Engine

variable [Payload α] [Target α δ] {e : Engine α δ} {l : Ledger α δ} {target : δ}

/-- The number of events, one or none, that the worker does not survive by the time that the
engine is shut down. -/
def fatalities (e : Engine α δ) : Nat :=
  match e.lifecycle with
  | .running worker =>
    match (worker.finish e.config.workerName e.config.drainOnShutdown e.close.shared).worker with
    | .died _ => 1
    | _ => 0
  | _ => 0

/-- The event that the worker did not survive keeps its record. -/
theorem fatalities_eq (h : e.Matches l) (hsound : l.Sound target)
    (hopen : ∀ t, l.stage ≠ .closed t) : e.fatalities = l.shutdown.held.length := by
  have hheld : l.shutdown.held = l.windDown.held := by
    rw [Ledger.shutdown_of_ne_closed hopen]
    rfl
  rw [hheld, fatalities]
  cases hlifecycle : e.lifecycle with
  | running worker =>
      have hcasualty := congrArg List.length (casualty_finish h hsound hlifecycle)
      rw [List.length_map] at hcasualty
      rw [hcasualty]
      simp only
      cases (worker.finish e.config.workerName e.config.drainOnShutdown e.close.shared).worker <;>
        rfl
  | idle t =>
      have hidle : l.stage = .idle t := by
        rw [h.stage.stage_eq, hlifecycle, Lifecycle.stage]
      have hbefore := hsound.fits
      simp only [Ledger.Fits, hidle] at hbefore
      simp [Ledger.windDown_of_idle hidle hbefore.1, Ledger.close, hbefore.2.1]
  | failed =>
      have hfailed : l.stage = .failed := by
        rw [h.stage.stage_eq, hlifecycle, Lifecycle.stage]
      have hbefore := hsound.fits
      simp only [Ledger.Fits, hfailed] at hbefore
      simp [Ledger.windDown_of_failed hfailed, Ledger.close, hbefore.1]
  | stopped t =>
      have hclosed : l.stage = .closed t := by
        rw [h.stage.stage_eq, hlifecycle, Lifecycle.stage]
      exact absurd hclosed (hopen t)

/-- An engine accounts for the events that were offered to it and for its records, but for a
number of them that is lost. -/
structure Balances (e : Engine α δ) (config : Config) (offered lost : Nat) : Prop where
  /-- Every offered event was delivered, or dropped, or is lost. -/
  events : offered = e.stats.written + e.stats.dropped + lost
  /-- Every record is free or lost. -/
  slots : e.availableSlots + lost = config.poolCapacity
  /-- Nothing is queued. -/
  queue : e.shared.queue.isEmpty e.shared.links = true

/-- Once an engine is shut down every event that was offered in a call that returned is counted
once, but for one that its worker did not survive, and so is every record.  The shutdown itself
drops all accepted events that are neither delivered by then nor lost. -/
theorem accounted_after_shutdown {config : Config} {e : Engine α δ}
    (hnew : Engine.new config target = .ok e) (before after : List (Action α))
    (hbefore : .shutdown ∉ before) :
    (e.run (before ++ .shutdown :: after)).Balances config
        (e.offeredIn (before ++ .shutdown :: after)).length (e.run before).fatalities ∧
      (e.run before).fatalities ≤ 1 ∧
      (e.run before).shutdown.stats.dropped =
        (e.run before).stats.dropped + ((e.run before).stats.enqueued -
          ((e.run before).shutdown.stats.written + (e.run before).fatalities)) := by
  have hmatchesBefore := matches_run (matches_new hnew) before
  have hmatches := matches_run (matches_new hnew) (before ++ .shutdown :: after)
  have hsoundBefore := Ledger.sound_run config target before
  have hsound := Ledger.sound_run config target (before ++ .shutdown :: after)
  have hcapacity := (Ledger.settings_run config target (before ++ .shutdown :: after)).2
  have hopen : ∀ t, ((Ledger.new config target).run before).stage ≠ .closed t := by
    intro t ht
    rcases (Ledger.closed_run _ before).1 ⟨t, ht⟩ with ⟨u, hu⟩ | hshut
    · simp [Ledger.new] at hu
    · exact hbefore hshut
  obtain ⟨t, hstage⟩ := (Ledger.closed_run (Ledger.new config target)
    (before ++ .shutdown :: after)).2 (Or.inr (by simp))
  -- what the worker did not survive is held from the shutdown on
  have hheld : ((Ledger.new config target).run (before ++ .shutdown :: after)).held.length =
      (e.run before).fatalities := by
    have hclosed : ((Ledger.new config target).run before).shutdown.stage =
        .closed ((Ledger.new config target).run before).windDown.stage.target? := by
      rw [Ledger.shutdown_of_ne_closed hopen]
      rfl
    have hkept := Ledger.held_run_of_closed hclosed after
    rw [fatalities_eq hmatchesBefore hsoundBefore hopen, ← hkept]
    simp [Ledger.run, Ledger.step, List.foldl_append]
  rcases Ledger.balance_of_closed hsound hstage with ⟨hevents, hslots, hqueued⟩
  have hfits := hsound.fits
  simp only [Ledger.Fits, hstage] at hfits
  rw [hheld] at hevents hslots hfits
  refine ⟨⟨?_, ?_, ?_⟩, hfits.2, ?_⟩
  · rw [← offered_run hnew, hmatches.stats_eq]
    exact hevents
  · rw [hmatches.availableSlots_eq, hslots, hcapacity]
  · rw [Queue.isEmpty_of_holds hmatches.shared.queue, hqueued]
    rfl
  · have hdropped := Ledger.dropped_shutdown hsoundBefore hopen
    rw [← fatalities_eq hmatchesBefore hsoundBefore hopen] at hdropped
    rw [(matches_shutdown hmatchesBefore).stats_eq, hmatchesBefore.stats_eq]
    omega

/-- The worker does not survive the first of two events. -/
def failedDelivery : List (Action Rehearsal.Item) :=
  [.enqueue none (.marked "!panic".toList), .enqueue none (.event (.generic {})), .take, .deliver]

theorem accounted_after_failedDelivery :
    ∃ e : Engine Rehearsal.Item Rehearsal.Recorder,
      Engine.new { poolCapacity := 2 } ⟨⟨.memory .memory, .text⟩, []⟩ = .ok e ∧
        (e.run (failedDelivery ++ .shutdown :: [.enqueue none (.event (.generic {}))])).Balances
          { poolCapacity := 2 } 3 1 := by
  refine ⟨_, rfl, ?_⟩
  have hnew : Engine.new (α := Rehearsal.Item) { poolCapacity := 2 }
      (⟨⟨.memory .memory, .text⟩, []⟩ : Rehearsal.Recorder) = .ok _ := rfl
  exact (accounted_after_shutdown hnew failedDelivery [.enqueue none (.event (.generic {}))]
    (by simp [failedDelivery])).1

end Engine

end EventLog
