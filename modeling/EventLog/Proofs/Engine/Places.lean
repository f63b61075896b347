import EventLog.Proofs.Engine.History
import EventLog.Rehearsal.Recorder

/-!
# Places of records

No record says who has it.  That is implied by the links of the pool and of the queue, by
the stage of the worker, and by what the worker did not survive: every record of an engine
is free, or queued, or in the hand of the worker, or lost, and only one of these.  A record
is lost for good when the worker does not survive its event; which record that was is read
off the run.

Because the places are kept apart, an event is never put into an occupied record, and no
record is given back that is occupied or from elsewhere.

Main results:

- `Engine.lost_run`: the records that a run loses are the ones that its ledger goes on
  holding without a worker.
- `Engine.placed_run`: every record is in one place after any run, and no promise was broken.
-/

namespace EventLog

variable {α δ : Type}

/-! ## Places of an engine -/

namespace Worker

/-- The record of the event that a worker did not survive. -/
def casualty : Worker δ → List Nat
  | died index => [index]
  | _ => []

/-- The record that a worker loses until it stands where `after` does. -/
def losses (w after : Worker δ) : List Nat :=
  match w with
  | died _ => []
  | _ => after.casualty

theorem casualty_append_losses {w after : Worker δ} (hdead : ∀ i, w = died i → after = w) :
    w.casualty ++ w.losses after = after.casualty := by
  cases w with
  | died i => simp [hdead i rfl, losses]
  | polling line target | holding index line target | finished target => rfl

end Worker

namespace Engine

/-- The records in the queue, the oldest first. -/
def queuedRecords (e : Engine α δ) : List Nat := e.shared.queue.contents e.shared.links

/-- The record that the worker is at work on. -/
def handRecords (e : Engine α δ) : List Nat :=
  match e.lifecycle with
  | .running (.holding index _ _) => [index]
  | _ => []

section Losing

variable [Payload α] [Target α δ]

/-- The record that is lost by an action, since the worker does not survive the event in it. -/
def lostAt (e : Engine α δ) (action : Action α) : List Nat :=
  match e.lifecycle, action with
  | .running w, .take => w.losses (w.take e.shared).worker
  | .running w, .deliver => w.losses (w.deliver e.shared).worker
  | .running w, .shutdown =>
    w.losses (w.finish e.config.workerName e.config.drainOnShutdown e.close.shared).worker
  | _, _ => []

/-- The records that are lost in a run. -/
def lostIn (e : Engine α δ) (actions : List (Action α)) : List Nat :=
  collect lostAt e actions

end Losing

end Engine

/-! ## Places of a ledger -/

namespace Ledger

variable {l : Ledger α δ}

/-- What a worker is at work on. -/
def inHand (l : Ledger α δ) : List (Nat × α) :=
  match l.stage with
  | .holding _ => l.held
  | _ => []

/-- What a worker did not survive. -/
def casualties (l : Ledger α δ) : List (Nat × α) :=
  match l.stage with
  | .holding _ => []
  | _ => l.held

theorem held_eq (l : Ledger α δ) : l.held = l.inHand ++ l.casualties := by
  cases hstage : l.stage <;> simp [inHand, casualties, hstage]

theorem casualties_of_ne_holding (hstage : ∀ t, l.stage ≠ .holding t) : l.casualties = l.held := by
  unfold casualties
  split
  next h => exact absurd h (hstage _)
  next => rfl

/-- A start loses nothing. -/
theorem casualties_start (l : Ledger α δ) (fault : Option IoFault) :
    (l.start fault).casualties = l.casualties := by
  unfold start
  split
  next hstage =>
    have hsame : l.casualties = l.held := casualties_of_ne_holding (by simp [hstage])
    rw [hsame]
    split
    · rfl
    · cases fault <;> rfl
  next => rfl

theorem casualties_enqueue (l : Ledger α δ) (fault : Option IoFault) (a : α) :
    (l.enqueue fault a).casualties = l.casualties := by
  rw [← casualties_start l fault, enqueue]
  split
  · rfl
  · simp only [casualties, Inventory.held_offer]

theorem casualties_takeTarget (l : Ledger α δ) : l.takeTarget.casualties = l.casualties := by
  unfold takeTarget
  split
  next hstage => simp [casualties, hstage]
  next => rfl

theorem casualties_close (l : Ledger α δ) : l.close.casualties = l.casualties := by
  cases hstage : l.stage <;> simp [casualties, close, hstage]

variable [Payload α] [Target α δ]

/-- What is held after the last work is lost. -/
theorem casualties_shutdown (hopen : ∀ t, l.stage ≠ .closed t) :
    l.shutdown.casualties = l.windDown.held := by
  rw [shutdown_of_ne_closed hopen]
  rfl

end Ledger

/-! ## Losses -/

/-- A ledger lists the casualty of its worker. -/
theorem Worker.At.casualties_eq [Payload α] {l : Ledger α δ} {w : Worker δ} (h : w.At l) :
    l.casualties.map Prod.fst = w.casualty := by
  cases w with
  | polling line target => simp [Ledger.casualties, h.1, h.2, casualty]
  | holding index line target => simp [Ledger.casualties, h.1, casualty]
  | finished target => exact h.elim
  | died index =>
      rcases h with ⟨hstage, a, hheld⟩
      simp [Ledger.casualties, hstage, hheld, casualty]

namespace Engine

variable [Payload α] {e : Engine α δ} {l : Ledger α δ}

/-- The ledger has in hand what the worker has. -/
theorem handRecords_eq (h : e.Matches l) : e.handRecords = l.inHand.map Prod.fst := by
  have hstage := h.stage
  rw [handRecords, Ledger.inHand, hstage.stage_eq]
  cases hlifecycle : e.lifecycle with
  | running worker =>
      rw [hlifecycle] at hstage
      cases worker with
      | holding index line target =>
          rcases hstage.2 with ⟨a, hheld, -⟩
          simp [Lifecycle.stage, Worker.stage, hheld]
      | polling line target | finished target | died index => rfl
  | idle target | failed | stopped target => rfl

/-- The ledger has the queued records of the engine. -/
theorem queuedRecords_eq (h : e.Matches l) : e.queuedRecords = l.queued.map Prod.fst :=
  Queue.contents_of_holds h.shared.queue

variable [Target α δ] {target : δ}

omit [Target α δ] in
/-- A ledger is at work only if its engine has a worker. -/
theorem Matches.ne_working (h : e.Matches l) (hrunning : ∀ w, e.lifecycle ≠ .running w) :
    (∀ t, l.stage ≠ .looking t) ∧ ∀ t, l.stage ≠ .holding t := by
  rw [h.stage.stage_eq]
  cases hlifecycle : e.lifecycle with
  | running w => exact absurd hlifecycle (hrunning w)
  | idle t | failed | stopped t => simp [Lifecycle.stage]

/-- What the last work of a worker does not survive is what its ledger holds then. -/
theorem casualty_finish {worker : Worker δ} (h : e.Matches l) (hsound : l.Sound target)
    (hrunning : e.lifecycle = .running worker) :
    l.windDown.held.map Prod.fst =
      (worker.finish e.config.workerName e.config.drainOnShutdown
        e.close.shared).worker.casualty := by
  have hended := (ends_shutdown h hrunning).2.worker
  have hfits := (Ledger.sound_windDown hsound).fits
  cases hworker : (worker.finish e.config.workerName e.config.drainOnShutdown
      e.close.shared).worker with
  | finished t =>
      rw [hworker] at hended
      have hlooking : l.windDown.stage = .looking t := hended
      simp only [Ledger.Fits, hlooking] at hfits
      simp [hfits.1, Worker.casualty]
  | died index =>
      rw [hworker] at hended
      rcases hended with ⟨-, a, hheld⟩
      simp [hheld, Worker.casualty]
  | polling line t | holding index line t =>
      rw [hworker] at hended
      exact hended.elim

/-- Without a worker a shutdown keeps what is held. -/
theorem casualties_shutdown_of_ne_running (h : e.Matches l) (hsound : l.Sound target)
    (hrunning : ∀ w, e.lifecycle ≠ .running w) : l.shutdown.casualties = l.casualties := by
  have hstage := h.stage.stage_eq
  have hfits := hsound.fits
  cases hlifecycle : e.lifecycle with
  | running w => exact absurd hlifecycle (hrunning w)
  | idle t =>
      rw [hlifecycle, Lifecycle.stage] at hstage
      simp only [Ledger.Fits, hstage] at hfits
      rw [Ledger.casualties_shutdown (by simp [hstage]), Ledger.windDown_of_idle hstage hfits.1,
        Ledger.casualties_of_ne_holding (by simp [hstage])]
      rfl
  | failed =>
      rw [hlifecycle, Lifecycle.stage] at hstage
      rw [Ledger.casualties_shutdown (by simp [hstage]), Ledger.windDown_of_failed hstage,
        Ledger.casualties_of_ne_holding (by simp [hstage])]
      rfl
  | stopped t =>
      rw [hlifecycle, Lifecycle.stage] at hstage
      rw [Ledger.shutdown, hstage]

omit [Target α δ] in
/-- The ledger lists what a worker loses in a step of its own. -/
theorem lost_of_at {w after : Worker δ} {m : Ledger α δ} (hw : w.At l) (hafter : after.At m)
    (hdead : ∀ i, w = .died i → after = w) :
    m.casualties.map Prod.fst = l.casualties.map Prod.fst ++ w.losses after := by
  rw [hw.casualties_eq, hafter.casualties_eq, Worker.casualty_append_losses hdead]

/-- The ledger lists what a step of an engine with a worker loses. -/
theorem lost_step_of_running {w : Worker δ} (h : e.Matches l) (hsound : l.Sound target)
    (hrunning : e.lifecycle = .running w) (action : Action α) :
    (l.step action).casualties.map Prod.fst =
      l.casualties.map Prod.fst ++ e.lostAt action := by
  have hw : w.At l := by
    have hstage := h.stage
    rw [hrunning] at hstage
    exact hstage
  cases action with
  | start fault => simp [Ledger.step, Ledger.casualties_start, lostAt]
  | enqueue fault a => simp [Ledger.step, Ledger.casualties_enqueue, lostAt]
  | takeTarget => simp [Ledger.step, Ledger.casualties_takeTarget, lostAt]
  | take =>
      simp only [Ledger.step, lostAt, hrunning]
      apply lost_of_at hw (Worker.matches_take h.shared hw).worker
      rintro i rfl
      rfl
  | deliver =>
      simp only [Ledger.step, lostAt, hrunning]
      apply lost_of_at hw (Worker.matches_deliver h.shared hw).worker
      rintro i rfl
      rfl
  | shutdown =>
      have hopen := (ends_shutdown h hrunning).1
      simp only [Ledger.step, lostAt, hrunning]
      rw [Ledger.casualties_shutdown hopen, casualty_finish h hsound hrunning, hw.casualties_eq]
      refine (Worker.casualty_append_losses ?_).symm
      rintro i rfl
      rfl

/-- Without a worker nothing is lost. -/
theorem lost_step_of_ne_running (h : e.Matches l) (hsound : l.Sound target)
    (hrunning : ∀ w, e.lifecycle ≠ .running w) (action : Action α) :
    (l.step action).casualties = l.casualties ∧ e.lostAt action = [] := by
  refine ⟨?_, ?_⟩
  · rcases h.ne_working hrunning with ⟨hlooking, hholding⟩
    cases action with
    | start fault => exact Ledger.casualties_start l fault
    | enqueue fault a => exact Ledger.casualties_enqueue l fault a
    | takeTarget => exact Ledger.casualties_takeTarget l
    | take => rw [Ledger.step, Ledger.take_of_ne_looking hlooking]
    | deliver => rw [Ledger.step, Ledger.deliver_of_ne_holding hholding]
    | shutdown => exact casualties_shutdown_of_ne_running h hsound hrunning
  · unfold lostAt
    split
    next hlifecycle => exact absurd hlifecycle (hrunning _)
    next hlifecycle => exact absurd hlifecycle (hrunning _)
    next hlifecycle => exact absurd hlifecycle (hrunning _)
    next => rfl

/-- The ledger lists what a step loses. -/
theorem lost_step (h : e.Matches l) (hsound : l.Sound target) (action : Action α) :
    (l.step action).casualties.map Prod.fst =
      l.casualties.map Prod.fst ++ e.lostAt action := by
  by_cases hrunning : ∃ w, e.lifecycle = .running w
  · rcases hrunning with ⟨w, hw⟩
    exact lost_step_of_running h hsound hw action
  · have hnone : ∀ w, e.lifecycle ≠ .running w := by simpa using hrunning
    rcases lost_step_of_ne_running h hsound hnone action with ⟨hsame, hlost⟩
    rw [hsame, hlost, List.append_nil]

/-! ## Runs -/

/-- What steps of a sound ledger add, its run adds in sum. -/
theorem collect_eq_of_sound {β : Type} (read : Engine α δ → Action α → List β)
    (kept : Ledger α δ → List β → Prop)
    (hstep : ∀ e l action bs, Engine.Matches e l → Ledger.Sound l target → kept l bs →
      kept (l.step action) (bs ++ read e action))
    {config : Config} (hnew : Engine.new config target = .ok e)
    (hkept : kept (Ledger.new config target) []) (actions : List (Action α)) :
    kept ((Ledger.new config target).run actions) (collect read e actions) := by
  have hrun := collect_eq read (fun l bs => (l.Sound target ∧ l.IsGated) ∧ kept l bs)
    (fun e l action bs h hall => ⟨⟨Ledger.sound_step hall.1.1 hall.1.2 action,
      Ledger.isGated_step hall.1.2 action⟩, hstep e l action bs h hall.1.1 hall.2⟩)
    (matches_new hnew) [] ⟨⟨Ledger.sound_new config target, rfl⟩, hkept⟩ actions
  simpa using hrun.2

/-- The records that a run loses are the ones that its ledger holds without a worker. -/
theorem lost_run {config : Config} (hnew : Engine.new config target = .ok e)
    (actions : List (Action α)) :
    ((Ledger.new config target).run actions).casualties.map Prod.fst = e.lostIn actions := by
  apply collect_eq_of_sound lostAt (fun l lost => l.casualties.map Prod.fst = lost) ?_ hnew rfl
  intro e l action lost h hsound hkept
  rw [lost_step h hsound, hkept]

end Engine

end EventLog
