import EventLog.Proofs.Engine.BoundedBuffer
import EventLog.Proofs.Engine.Custody
import EventLog.Rehearsal.Recorder

/-!
# The life of an engine

An engine lives once: it waits, it has a worker or fails to get one, and it is shut down.
Its target goes with it, from the engine to the worker and back, until a caller takes it, or
nobody can.  After the shutdown an engine drops what it is offered and does nothing else, but
for handing the target out once.

Main results:

- `Engine.not_spawns_of_ne_idle` and `Engine.ne_idle_run`: only an engine that waits for its
  first start gets a worker, and no engine waits again.
- `Ledger.lostBy_step`: the ways in which a target is lost.
- `Engine.run_of_isOver`: what actions do to an engine that is shut down.
- `Engine.livesOnce_of_validate`: the life of every engine with acceptable settings.
-/

namespace EventLog

variable {α δ : Type}

namespace Engine

/-! ## Workers and targets -/

/-- The worker of an engine that has one, alive or not. -/
def worker? (e : Engine α δ) : Option (Worker δ) :=
  match e.lifecycle with
  | .running worker => some worker
  | _ => none

/-- Who can have the target of an engine. -/
inductive Keeper where
  /-- The engine, until it is started. -/
  | idle
  | worker
  /-- The engine, after its shutdown. -/
  | stopped
  /-- The caller that took the target back. -/
  | caller
  /-- The target is lost. -/
  | nobody
  deriving DecidableEq, Repr

/-- The targets that a keeper has, where `taken` are those that callers took back. -/
def targetsOf (e : Engine α δ) (taken : List δ) : Keeper → List δ
  | .idle => match e.lifecycle with
    | .idle target => [target]
    | _ => []
  | .worker => (e.worker?.bind Worker.target?).toList
  | .stopped => match e.lifecycle with
    | .stopped target => target.toList
    | _ => []
  | .caller => taken
  | .nobody => e.lost.toList

section Reading

variable [Payload α] [Target α δ]

/-- The action starts a worker: behind it the engine has one that it did not have before.  The
steps that a worker makes change it, but do not make it another one. -/
def Spawns (e : Engine α δ) (action : Action α) : Prop :=
  match action with
  | .take | .deliver => e.worker? = none ∧ (e.step action).worker? ≠ none
  | _ => (e.step action).worker? ≠ none ∧ (e.step action).worker? ≠ e.worker?

/-- The target that is stranded by an action, since the worker that should have it cannot be
started. -/
def strandedAt (e : Engine α δ) (action : Action α) : List δ :=
  match e.lifecycle, (e.step action).lifecycle with
  | .idle target, .failed => [target]
  | _, _ => []

/-- The targets that are stranded in a run. -/
def strandedIn (e : Engine α δ) (actions : List (Action α)) : List δ :=
  collect strandedAt e actions

end Reading

/-- The action asks for the target. -/
def Action.takesBack : Action α → Bool
  | .takeTarget => true
  | _ => false

/-- The target is asked for among actions. -/
def takesBack (actions : List (Action α)) : Bool := actions.any Action.takesBack

/-- The engine that one becomes that is shut down: it drops and destroys what it is offered, and
keeps its target until that is taken back. -/
def afterwards (e : Engine α δ) (actions : List (Action α)) : Engine α δ :=
  { e with
    shared := { e.shared with
      stats := { e.stats with dropped := e.stats.dropped + (passedIn actions).length }
      destroyed := (passedIn actions).reverse ++ e.shared.destroyed }
    lifecycle := if takesBack actions then .stopped none else e.lifecycle }

/-- A new engine with a target lives once. -/
structure LivesOnce [Payload α] [Target α δ] (e : Engine α δ) (target : δ) : Prop where
  /-- Once an action started a worker, no later action starts another. -/
  one_worker : ∀ before action after next, (e.run before).Spawns action →
    ¬ (e.run (before ++ action :: after)).Spawns next
  /-- At any time one keeper has the target, which was handed the delivered events, and the others
  have none. -/
  one_keeper : ∀ actions, ∃ keeper t,
    handOverAll ((e.acceptedIn actions).take (e.run actions).stats.written) target = some t ∧
      (e.run actions).targetsOf (e.takenIn actions) keeper = [t] ∧
      ∀ other, other ≠ keeper → (e.run actions).targetsOf (e.takenIn actions) other = []
  /-- The target is lost only with a worker that did not survive an event, or by a start that
  failed. -/
  lost_iff : ∀ actions, (e.run actions).lost ≠ none ↔
    e.lostIn actions ≠ [] ∨ e.strandedIn actions ≠ []
  /-- Before the shutdown nothing is handed out. -/
  kept : ∀ actions, .shutdown ∉ actions →
    (e.run actions).takeTarget = (none, e.run actions)
  /-- The first shutdown leaves the target to be taken back, unless it is lost. -/
  recoverable : ∀ before, .shutdown ∉ before →
    ((e.run before).shutdown.takeTarget.1 = none ↔ (e.run before).shutdown.lost ≠ none)
  /-- After a shutdown the target is handed out to the first who asks. -/
  handed_out : ∀ before after, (e.run (before ++ .shutdown :: after)).takeTarget.1 =
    if takesBack after then none else (e.run before).shutdown.takeTarget.1
  /-- After a shutdown an engine only drops what it is offered, and hands its target out. -/
  settled : ∀ before after, e.run (before ++ .shutdown :: after) =
    (e.run before).shutdown.afterwards after
  /-- After a shutdown no start succeeds. -/
  start_refused : ∀ before after fault,
    (e.run (before ++ .shutdown :: after)).start fault =
      (.refused .shutDown, e.run (before ++ .shutdown :: after))

/-! ## Engines that are not idle -/

section Past

variable {e : Engine α δ}

/-- Starting before an event does nothing to an engine that is not idle. -/
theorem ensureStarted_of_ne_idle (hidle : ∀ target, e.lifecycle ≠ .idle target)
    (fault : Option IoFault) :
    (e.ensureStarted fault).2 = e ∧ ∀ p, (e.ensureStarted fault).1 ≠ .panicked p := by
  unfold ensureStarted
  split
  · exact ⟨rfl, by simp⟩
  · exact start_of_ne_idle hidle fault

/-- An event is offered to an engine that is not idle as it is. -/
theorem enqueue_of_ne_idle (hidle : ∀ target, e.lifecycle ≠ .idle target)
    (fault : Option IoFault) (a : α) :
    e.enqueue fault a = (.done, { e with shared := e.shared.offer a }) := by
  rcases ensureStarted_of_ne_idle hidle fault with ⟨hsame, hreturns⟩
  unfold enqueue
  split
  next p f hstart => exact absurd (by rw [hstart]) (hreturns p)
  next reply f hother hstart =>
    rw [hstart] at hsame
    subst hsame
    rfl

variable [Payload α] [Target α δ]

theorem lifecycle_shutdown (e : Engine α δ) : ∃ t, e.shutdown.lifecycle = .stopped t := by
  unfold shutdown
  split
  next t h => exact ⟨t, h⟩
  next => exact ⟨none, rfl⟩
  next =>
    simp only
    split <;> exact ⟨_, rfl⟩
  next =>
    simp only
    split <;> exact ⟨_, rfl⟩

/-- Without a worker nothing is taken and nothing delivered. -/
theorem work_of_no_worker (h : e.worker? = none) : e.workerTake = e ∧ e.workerDeliver = e := by
  have hrunning : ∀ w, e.lifecycle ≠ .running w := by
    intro w hw
    simp [worker?, hw] at h
  constructor
  · unfold workerTake
    split
    next w hw => exact absurd hw (hrunning w)
    next => rfl
  · unfold workerDeliver
    split
    next w hw => exact absurd hw (hrunning w)
    next => rfl

/-- Only an engine that waits for its first start gets a worker. -/
theorem not_spawns_of_ne_idle (hidle : ∀ target, e.lifecycle ≠ .idle target)
    (action : Action α) : ¬ e.Spawns action := by
  cases action with
  | start fault =>
      rintro ⟨-, hother⟩
      rw [step, (start_of_ne_idle hidle fault).1] at hother
      exact hother rfl
  | enqueue fault a =>
      rintro ⟨-, hother⟩
      rw [step, enqueue_of_ne_idle hidle] at hother
      exact hother rfl
  | take =>
      rintro ⟨hnone, hsome⟩
      rw [step, (work_of_no_worker hnone).1] at hsome
      exact hsome hnone
  | deliver =>
      rintro ⟨hnone, hsome⟩
      rw [step, (work_of_no_worker hnone).2] at hsome
      exact hsome hnone
  | shutdown =>
      rintro ⟨hsome, -⟩
      rcases lifecycle_shutdown e with ⟨t, ht⟩
      simp [step, worker?, ht] at hsome
  | takeTarget =>
      rintro ⟨hsome, hother⟩
      simp only [step, takeTarget] at hsome hother
      split at hsome
      next h => simp [worker?] at hsome
      next h => simp_all

/-- An engine that is not idle does not become so again. -/
theorem ne_idle_step (hidle : ∀ target, e.lifecycle ≠ .idle target) (action : Action α) :
    ∀ target, (e.step action).lifecycle ≠ .idle target := by
  cases action with
  | start fault =>
      rw [step, (start_of_ne_idle hidle fault).1]
      exact hidle
  | enqueue fault a =>
      rw [step, enqueue_of_ne_idle hidle]
      exact hidle
  | take =>
      simp only [step, workerTake]
      split
      · simp [afterProgress]
      · exact hidle
  | deliver =>
      simp only [step, workerDeliver]
      split
      · simp [afterProgress]
      · exact hidle
  | shutdown =>
      rcases lifecycle_shutdown e with ⟨t, ht⟩
      simp [step, ht]
  | takeTarget =>
      simp only [step, takeTarget]
      split
      · simp
      · exact hidle

theorem ne_idle_run (hidle : ∀ target, e.lifecycle ≠ .idle target) (actions : List (Action α)) :
    ∀ target, (e.run actions).lifecycle ≠ .idle target := by
  induction actions generalizing e with
  | nil => exact hidle
  | cons action actions ih => exact ih (ne_idle_step hidle action)

/-- An engine that was just given a worker is not idle. -/
theorem ne_idle_of_spawns {action : Action α} (h : e.Spawns action) (target : δ) :
    (e.step action).lifecycle ≠ .idle target := by
  have hsome : (e.step action).worker? ≠ none := by
    cases action with
    | take | deliver => exact h.2
    | start fault | enqueue fault a | shutdown | takeTarget => exact h.1
  intro hidle
  exact hsome (by rw [worker?, hidle])

theorem run_append (e : Engine α δ) (before after : List (Action α)) :
    e.run (before ++ after) = (e.run before).run after :=
  List.foldl_append

/-- No run starts two workers. -/
theorem not_spawns_after_spawns {before : List (Action α)} {action : Action α}
    (h : (e.run before).Spawns action) (after : List (Action α)) (next : Action α) :
    ¬ (e.run (before ++ action :: after)).Spawns next := by
  rw [run_append]
  apply not_spawns_of_ne_idle
  exact ne_idle_run (ne_idle_of_spawns h) after

end Past

end Engine

/-! ## Lost targets -/

namespace Ledger

variable {l : Ledger α δ} {target : δ} {stranded : Prop}

/-- The target is lost exactly if a worker did not survive an event, or if it is stranded. -/
def LostBy (l : Ledger α δ) (stranded : Prop) : Prop :=
  l.lost ≠ none ↔ l.casualties ≠ [] ∨ stranded

theorem LostBy.congr {m : Ledger α δ} (h : l.LostBy stranded) (hlost : m.lost = l.lost)
    (hcasualties : m.casualties = l.casualties) : m.LostBy stranded := by
  rw [LostBy, hlost, hcasualties]
  exact h

/-- Where no start fails nothing is stranded. -/
theorem LostBy.of_ne_failed {m : Ledger α δ} (h : m.LostBy stranded)
    (hstage : ∀ t, l.stage = .idle t → m.stage ≠ .failed) :
    m.LostBy (stranded ∨ (∃ t, l.stage = .idle t) ∧ m.stage = .failed) := by
  have hnot : ¬ ((∃ t, l.stage = .idle t) ∧ m.stage = .failed) := by
    rintro ⟨⟨t, hidle⟩, hfailed⟩
    exact hstage t hidle hfailed
  simpa [LostBy, hnot] using h

/-- A start that fails strands the target. -/
theorem lostBy_start (h : l.LostBy stranded) (fault : Option IoFault) :
    (l.start fault).LostBy
      (stranded ∨ (∃ t, l.stage = .idle t) ∧ (l.start fault).stage = .failed) := by
  have hsame := casualties_start l fault
  unfold start at hsame ⊢
  split
  next t hstage =>
    split
    next => simp [LostBy, hstage]
    next => cases fault <;> simp_all [LostBy]
  next hidle =>
    have hnone : ¬ ∃ t, l.stage = .idle t := by simpa using hidle
    simpa [LostBy, hnone] using h

section Working

variable [Payload α]

theorem lostBy_take [Target α δ] (h : l.LostBy stranded) (hsound : l.Sound target) :
    l.take.LostBy stranded := by
  unfold take
  split
  next t i a queued hstage hqueued =>
    have hfits := hsound.fits
    simp only [Fits, hstage] at hfits
    split
    · simp [LostBy, casualties]
    · refine h.congr ?_ ?_
      · rfl
      · simp [casualties, hstage, hfits.1]
  next => exact h

variable [Target α δ]

theorem lostBy_deliver (h : l.LostBy stranded) (hsound : l.Sound target) :
    l.deliver.LostBy stranded := by
  rcases deliver_cases hsound with ⟨-, hsame⟩ |
    ⟨t, i, a, hstage, hheld, ⟨-, hdead⟩ | ⟨u, -, hdone⟩⟩
  · rw [hsame]
    exact h
  · simp [LostBy, hdead, casualties, hheld]
  · apply h.congr
    · rw [hdone]
    · simp [hdone, casualties, hstage]

theorem lostBy_drain (fuel : Nat) (h : l.LostBy stranded) (hsound : l.Sound target) :
    (l.drain fuel).LostBy stranded := by
  induction fuel generalizing l with
  | zero => exact h
  | succ fuel ih =>
      have htake := sound_take hsound
      exact ih (lostBy_deliver (lostBy_take h hsound) htake) (sound_deliver htake)

theorem lostBy_windDown (h : l.LostBy stranded) (hsound : l.Sound target) :
    l.windDown.LostBy stranded := by
  have hclose := sound_close hsound
  have hbefore : l.close.LostBy stranded := by
    refine h.congr ?_ (casualties_close l)
    rfl
  have hdeliver := lostBy_deliver hbefore hclose
  unfold windDown
  split
  · exact lostBy_drain _ hdeliver (sound_deliver hclose)
  · exact hdeliver

theorem lostBy_shutdown (h : l.LostBy stranded) (hsound : l.Sound target) :
    l.shutdown.LostBy stranded := by
  rcases shutdown_cases l with hsame | ⟨-, hshutdown⟩
  · rw [hsame]
    exact h
  · rw [hshutdown]
    refine (lostBy_windDown h hsound).congr ?_ ?_
    · rfl
    · exact (casualties_of_ne_holding (ne_holding_windDown hsound)).symm

/-- A step loses the target if the worker does not survive it, or if it strands the target. -/
theorem lostBy_step (h : l.LostBy stranded) (hsound : l.Sound target) (action : Engine.Action α) :
    (l.step action).LostBy
      (stranded ∨ (∃ t, l.stage = .idle t) ∧ (l.step action).stage = .failed) := by
  cases action with
  | start fault => exact lostBy_start h fault
  | enqueue fault a =>
      have hsame : (l.enqueue fault a).lost = (l.start fault).lost ∧
          (l.enqueue fault a).stage = (l.start fault).stage := by
        unfold enqueue
        split <;> exact ⟨rfl, rfl⟩
      rw [step, hsame.2]
      refine (lostBy_start h fault).congr hsame.1 ?_
      rw [casualties_enqueue, casualties_start]
  | take =>
      refine (lostBy_take h hsound).of_ne_failed ?_
      intro t hstage
      simp [take_of_ne_looking, hstage]
  | deliver =>
      refine (lostBy_deliver h hsound).of_ne_failed ?_
      intro t hstage
      simp [deliver_of_ne_holding, hstage]
  | shutdown =>
      refine (lostBy_shutdown h hsound).of_ne_failed ?_
      intro t hstage
      simp [shutdown, hstage, conclude]
  | takeTarget =>
      have hlost : l.takeTarget.lost = l.lost := by
        unfold takeTarget
        split <;> rfl
      refine (h.congr hlost (casualties_takeTarget l)).of_ne_failed ?_
      intro t hstage
      simp [takeTarget, hstage]

/-- Nothing is handed out before a shutdown. -/
theorem returned_run_of_open {actions : List (Engine.Action α)}
    (hopen : ∀ t, (l.run actions).stage ≠ .closed t) : (l.run actions).returned = l.returned := by
  induction actions generalizing l with
  | nil => rfl
  | cons action actions ih =>
      have hstep : ¬ ∃ t, (l.step action).stage = .closed t := by
        intro hclosed
        rcases (closed_run (l.step action) actions).2 (Or.inl hclosed) with ⟨t, ht⟩
        exact hopen t ht
      have hnow : ∀ t, l.stage ≠ .closed t := by
        intro t ht
        exact hstep ((closed_step l action).2 (Or.inl ⟨t, ht⟩))
      refine (ih hopen).trans ?_
      -- only a closed engine hands its target out, and no engine of this run is closed
      cases action with
      | takeTarget =>
          simp only [step, takeTarget]
          split
          next hstage => exact absurd hstage (hnow _)
          next => rfl
      | start fault | enqueue fault a | take | deliver | shutdown =>
          exact returned_step l _ (by simp)

end Working

end Ledger

/-! ## Engines that are shut down -/

namespace Engine

section Over

variable {e : Engine α δ}

/-- The engine was shut down. -/
structure IsOver (e : Engine α δ) : Prop where
  stopped : ∃ t, e.lifecycle = .stopped t
  not_accepting : e.shared.accepting = false

theorem afterwards_append (e : Engine α δ) (before after : List (Action α)) :
    (e.afterwards before).afterwards after = e.afterwards (before ++ after) := by
  have hpassed : passedIn (before ++ after) = passedIn before ++ passedIn after :=
    List.flatMap_append
  have htakes : takesBack (before ++ after) = (takesBack before || takesBack after) :=
    List.any_append
  simp only [afterwards, stats, hpassed, htakes, List.length_append, List.reverse_append,
    List.append_assoc, Nat.add_assoc]
  cases takesBack before <;> cases takesBack after <;> rfl

theorem isOver_afterwards (h : e.IsOver) (actions : List (Action α)) :
    (e.afterwards actions).IsOver := by
  refine ⟨?_, h.not_accepting⟩
  unfold afterwards
  cases takesBack actions with
  | true => exact ⟨none, rfl⟩
  | false => exact h.stopped

/-- An engine that is shut down does not start. -/
theorem start_of_isOver (h : e.IsOver) (fault : Option IoFault) :
    e.start fault = (.refused .shutDown, e) := by
  rcases h.stopped with ⟨t, ht⟩
  rw [start, ht]

/-- An engine that is shut down hands its target out once. -/
theorem takeTarget_afterwards (h : e.IsOver) (actions : List (Action α)) :
    (e.afterwards actions).takeTarget.1 =
      if takesBack actions then none else e.takeTarget.1 := by
  rcases h.stopped with ⟨t, ht⟩
  cases htakes : takesBack actions <;> simp [takeTarget, afterwards, htakes, ht]

variable [Payload α] [Target α δ]

/-- What one action does to an engine that is shut down. -/
theorem step_of_isOver (h : e.IsOver) (action : Action α) :
    e.step action = e.afterwards [action] := by
  rcases h.stopped with ⟨t, ht⟩
  have hidle : ∀ target, e.lifecycle ≠ .idle target := by simp [ht]
  have hworker : e.worker? = none := by rw [worker?, ht]
  cases action with
  | start fault =>
      rw [step, start_of_isOver h]
      rfl
  | enqueue fault a =>
      rw [step, enqueue_of_ne_idle hidle, Shared.offer, h.not_accepting]
      rfl
  | take =>
      rw [step, (work_of_no_worker hworker).1]
      rfl
  | deliver =>
      rw [step, (work_of_no_worker hworker).2]
      rfl
  | shutdown =>
      rw [step, shutdown, ht]
      rfl
  | takeTarget =>
      rw [step, takeTarget, ht]
      rfl

/-- What actions do to an engine that is shut down. -/
theorem run_of_isOver (h : e.IsOver) (actions : List (Action α)) :
    e.run actions = e.afterwards actions := by
  induction actions generalizing e with
  | nil => rfl
  | cons action actions ih =>
      have hrest := ih (isOver_afterwards h [action])
      rw [afterwards_append] at hrest
      rw [run, List.foldl_cons, step_of_isOver h]
      exact hrest

end Over

end Engine

/-! ## Lives of new engines -/

namespace Lifecycle

theorem stage_eq_idle_iff {lifecycle : Lifecycle δ} {t : δ} :
    lifecycle.stage = .idle t ↔ lifecycle = .idle t := by
  cases lifecycle with
  | running worker => cases worker <;> simp [stage, Worker.stage]
  | idle target | failed | stopped target => simp [stage]

theorem stage_eq_failed_iff {lifecycle : Lifecycle δ} :
    lifecycle.stage = .failed ↔ lifecycle = .failed := by
  cases lifecycle with
  | running worker => cases worker <;> simp [stage, Worker.stage]
  | idle target | failed | stopped target => simp [stage]

theorem stage_eq_closed_iff {lifecycle : Lifecycle δ} {t : Option δ} :
    lifecycle.stage = .closed t ↔ lifecycle = .stopped t := by
  cases lifecycle with
  | running worker => cases worker <;> simp [stage, Worker.stage]
  | idle target | failed | stopped target => simp [stage]

end Lifecycle

namespace Engine

/-- One target is with one keeper. -/
theorem keeper_of_one_target {e : Engine α δ} {taken : List δ} {t : δ}
    (h : e.target?.toList ++ (e.lost.toList ++ taken) = [t]) :
    ∃ keeper, e.targetsOf taken keeper = [t] ∧
      ∀ other, other ≠ keeper → e.targetsOf taken other = [] := by
  have hall : e.targetsOf taken .idle ++ (e.targetsOf taken .worker ++
      (e.targetsOf taken .stopped ++ (e.targetsOf taken .nobody ++ e.targetsOf taken .caller))) =
        [t] := by
    rw [← h, targetsOf, targetsOf, targetsOf, targetsOf, targetsOf, worker?, target?]
    cases e.lifecycle <;> simp
  simp only [List.append_eq_singleton_iff, List.append_eq_nil_iff] at hall
  rcases hall with ⟨hidle, ⟨hworker, ⟨hstopped, ⟨hnobody, hcaller⟩ | ⟨hnobody, hcaller⟩⟩ |
    ⟨hstopped, hnobody, hcaller⟩⟩ | ⟨hworker, hstopped, hnobody, hcaller⟩⟩ |
      ⟨hidle, hworker, hstopped, hnobody, hcaller⟩
  · exact ⟨.caller, hcaller, fun other hne => by cases other <;> trivial⟩
  · exact ⟨.nobody, hnobody, fun other hne => by cases other <;> trivial⟩
  · exact ⟨.stopped, hstopped, fun other hne => by cases other <;> trivial⟩
  · exact ⟨.worker, hworker, fun other hne => by cases other <;> trivial⟩
  · exact ⟨.idle, hidle, fun other hne => by cases other <;> trivial⟩

section Histories

variable [Payload α] [Target α δ] {e : Engine α δ} {l : Ledger α δ} {target : δ}

/-- The ledger tells whether an action strands the target. -/
theorem strandedAt_ne_nil_iff (h : e.Matches l) (action : Action α) :
    e.strandedAt action ≠ [] ↔ (∃ t, l.stage = .idle t) ∧ (l.step action).stage = .failed := by
  rw [h.stage.stage_eq, (matches_step h action).stage.stage_eq, Lifecycle.stage_eq_failed_iff]
  simp only [Lifecycle.stage_eq_idle_iff]
  unfold strandedAt
  split
  next t hidle hfailed => simp [hidle, hfailed]
  next hother =>
    simp only [ne_eq, not_true_eq_false, false_iff, not_and, forall_exists_index]
    intro t hidle hfailed
    exact hother t hidle hfailed

/-- The target of a run is lost with a worker or stranded. -/
theorem lost_iff_run {config : Config} (hnew : Engine.new config target = .ok e)
    (actions : List (Action α)) :
    (e.run actions).lost ≠ none ↔ e.lostIn actions ≠ [] ∨ e.strandedIn actions ≠ [] := by
  have hkept : ((Ledger.new config target).run actions).LostBy (e.strandedIn actions ≠ []) := by
    apply collect_eq_of_sound strandedAt (fun l ts => l.LostBy (ts ≠ [])) ?_ hnew
    · simp [Ledger.LostBy, Ledger.new, Ledger.casualties, Inventory.new]
    · intro e l action ts h hsound hkept
      have hstep := Ledger.lostBy_step hkept hsound action
      rw [← strandedAt_ne_nil_iff h] at hstep
      have happend : ts ++ e.strandedAt action ≠ [] ↔ ts ≠ [] ∨ e.strandedAt action ≠ [] := by
        rw [ne_eq, List.append_eq_nil_iff, not_and_or]
      rw [happend]
      exact hstep
  rw [(matches_run (matches_new hnew) actions).lost, ← lost_run hnew]
  simpa [Ledger.LostBy] using hkept

variable {config : Config} (hnew : Engine.new config target = .ok e)
include hnew

/-- At any time one keeper has the target. -/
theorem one_keeper_run (actions : List (Action α)) : ∃ keeper t,
    handOverAll ((e.acceptedIn actions).take (e.run actions).stats.written) target = some t ∧
      (e.run actions).targetsOf (e.takenIn actions) keeper = [t] ∧
      ∀ other, other ≠ keeper → (e.run actions).targetsOf (e.takenIn actions) other = [] := by
  have hmatches := matches_run (matches_new hnew) actions
  have hsound := Ledger.sound_run config target actions
  have hdelivered : (e.acceptedIn actions).take (e.run actions).stats.written =
      ((Ledger.new config target).run actions).delivered := by
    rw [← accepted_run hnew, hmatches.stats_eq, hsound.flow]
    exact List.take_left
  rcases hsound.one_target with ⟨t, hhanded, hone⟩
  rw [← hmatches.target?_eq, ← hmatches.lost, taken_run hnew] at hone
  rcases keeper_of_one_target hone with ⟨keeper, hkeeper, hothers⟩
  exact ⟨keeper, t, by rw [hdelivered, hhanded], hkeeper, hothers⟩

/-- An engine is shut down by a shutdown only. -/
theorem lifecycle_run_of_not_shutdown {actions : List (Action α)} (hopen : .shutdown ∉ actions)
    (t : Option δ) : (e.run actions).lifecycle ≠ .stopped t := by
  intro hstopped
  rw [← Lifecycle.stage_eq_closed_iff,
    ← (matches_run (matches_new hnew) actions).stage.stage_eq] at hstopped
  rcases (Ledger.closed_run (Ledger.new config target) actions).1 ⟨t, hstopped⟩ with ⟨u, hu⟩ | hshut
  · simp [Ledger.new] at hu
  · exact hopen hshut

/-- A shutdown leaves an engine that is over. -/
theorem isOver_shutdown (actions : List (Action α)) : (e.run actions).shutdown.IsOver := by
  refine ⟨lifecycle_shutdown _, ?_⟩
  have hmatches := matches_shutdown (matches_run (matches_new hnew) actions)
  have hgated := Ledger.isGated_step (Ledger.isGated_run config target actions) .shutdown
  rcases lifecycle_shutdown (e.run actions) with ⟨t, ht⟩
  have hstage := hmatches.stage.stage_eq
  rw [ht, Lifecycle.stage] at hstage
  rw [Ledger.IsGated, Ledger.step, hstage] at hgated
  rw [hmatches.shared.accepting, hgated]
  rfl

/-- The first shutdown leaves the target to be taken back, unless it is lost. -/
theorem takeTarget_shutdown {actions : List (Action α)} (hopen : .shutdown ∉ actions) :
    (e.run actions).shutdown.takeTarget.1 = none ↔ (e.run actions).shutdown.lost ≠ none := by
  have hmatchesBefore := matches_run (matches_new hnew) actions
  have hmatches := matches_shutdown hmatchesBefore
  rcases (Ledger.sound_shutdown (Ledger.sound_run config target actions)).one_target with
    ⟨t, -, hone⟩
  have hreturned : ((Ledger.new config target).run actions).shutdown.returned = [] := by
    refine (Ledger.returned_step _ .shutdown (by simp)).trans ?_
    refine Ledger.returned_run_of_open ?_
    intro u hu
    rw [hmatchesBefore.stage.stage_eq, Lifecycle.stage_eq_closed_iff] at hu
    exact lifecycle_run_of_not_shutdown hnew hopen u hu
  have htarget : (e.run actions).shutdown.takeTarget.1 = (e.run actions).shutdown.target? := by
    rcases lifecycle_shutdown (e.run actions) with ⟨u, hu⟩
    rw [takeTarget, target?, hu]
  rw [hreturned, ← hmatches.target?_eq, ← hmatches.lost, List.append_nil] at hone
  rw [htarget]
  cases hhas : (e.run actions).shutdown.target? <;>
    cases hlost : (e.run actions).shutdown.lost <;> simp_all

/-- Every engine lives once. -/
theorem livesOnce_of_new : e.LivesOnce target := by
  have hrun : ∀ before after, e.run (before ++ .shutdown :: after) =
      (e.run before).shutdown.afterwards after := by
    intro before after
    rw [run_append]
    exact run_of_isOver (isOver_shutdown hnew before) after
  exact {
    one_worker := fun before action after next h => not_spawns_after_spawns h after next
    one_keeper := one_keeper_run hnew
    lost_iff := lost_iff_run hnew
    kept := by
      intro actions hopen
      have hstopped := lifecycle_run_of_not_shutdown hnew hopen
      unfold takeTarget
      split
      next t ht => exact absurd ht (hstopped t)
      next => rfl
    recoverable := fun before hopen => takeTarget_shutdown hnew hopen
    handed_out := by
      intro before after
      rw [hrun]
      exact takeTarget_afterwards (isOver_shutdown hnew before) after
    settled := hrun
    start_refused := by
      intro before after fault
      rw [hrun]
      exact start_of_isOver (isOver_afterwards (isOver_shutdown hnew before) after) fault }

end Histories

/-- Every engine with acceptable settings lives once: it has at most one worker, its target is
with one keeper and handed out once, and after its shutdown it only drops events. -/
theorem livesOnce_of_validate [Payload α] [Target α δ] (config : Config) (target : δ)
    (hvalid : config.validate = .ok ()) :
    ∃ e : Engine α δ, Engine.new config target = .ok e ∧ e.LivesOnce target := by
  rcases new_of_validate (α := α) hvalid target with ⟨-, e, hnew⟩
  exact ⟨e, hnew, livesOnce_of_new hnew⟩

/-- Its first event gives an engine its worker; after the shutdown the target is handed out to
the first who asks. -/
theorem livesOnce_firstEvent :
    ∃ e : Engine Rehearsal.Item Rehearsal.Recorder,
      Engine.new { poolCapacity := 1 } ⟨⟨.memory .memory, .text⟩, []⟩ = .ok e ∧
        e.Spawns (.enqueue none (.event (.generic {}))) ∧
        (e.run [.enqueue none (.event (.generic {})), .shutdown]).takeTarget.1 ≠ none ∧
        e.LivesOnce ⟨⟨.memory .memory, .text⟩, []⟩ := by
  have hnew : Engine.new (α := Rehearsal.Item) { poolCapacity := 1 }
      (⟨⟨.memory .memory, .text⟩, []⟩ : Rehearsal.Recorder) = .ok _ := rfl
  obtain ⟨e, hmade, hlives⟩ := livesOnce_of_validate (α := Rehearsal.Item) { poolCapacity := 1 }
    (⟨⟨.memory .memory, .text⟩, []⟩ : Rehearsal.Recorder) rfl
  have hsame := Except.ok.inj (hmade.symm.trans hnew)
  refine ⟨e, hmade, ?_, ?_, hlives⟩
  · rw [hsame]
    exact ⟨Option.isSome_iff_ne_none.1 rfl, Option.isSome_iff_ne_none.1 rfl⟩
  · rw [hsame]
    exact Option.isSome_iff_ne_none.1 rfl

end Engine

end EventLog
