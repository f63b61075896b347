import EventLog.Proofs.Engine.History
import EventLog.Rehearsal.Recorder

/-!
# Engines without a worker

An engine whose worker could not be started, or that was shut down, is meant to refuse
events.  There are two ways in which a start can fail.  When no thread can be made, the
engine stops accepting events.  When the name of the worker cannot be given to a thread,
the start does not return, and the engine is left without a worker but open: events go
into its records and nobody takes them out again before the shutdown.

Main results:

- `Engine.refuses_of_not_open`: an engine at an end that is not open refuses events for
  good.
- `Engine.refuses_iff_namable`: an engine at an end refuses events, unless its worker could
  not be named; then it accepts what its records can hold.
-/

namespace EventLog

variable {α δ : Type}

/-! ## Ends -/

namespace Stage

/-- An engine at this stage has no worker and gets none any more. -/
def IsEnd : Stage δ → Prop
  | failed => True
  | closed _ => True
  | _ => False

end Stage

namespace Lifecycle

/-- The worker could not be started, or the engine was shut down. -/
def IsEnd : Lifecycle δ → Prop
  | failed => True
  | stopped _ => True
  | _ => False

/-- A ledger shows the end of its engine. -/
theorem isEnd_stage_iff (lifecycle : Lifecycle δ) : lifecycle.stage.IsEnd ↔ lifecycle.IsEnd := by
  cases lifecycle with
  | running worker => cases worker <;> simp [stage, Worker.stage, IsEnd, Stage.IsEnd]
  | idle target | failed | stopped target => simp [stage, IsEnd, Stage.IsEnd]

end Lifecycle

namespace Ledger

variable {l : Ledger α δ}

theorem ne_idle_of_isEnd (h : l.stage.IsEnd) (t : δ) : l.stage ≠ .idle t := by
  intro hstage
  rw [hstage] at h
  exact h

/-- At an end an event is offered to the inventory as it is. -/
theorem enqueue_of_isEnd (h : l.stage.IsEnd) (fault : Option IoFault) (a : α) :
    l.enqueue fault a = { l with toInventory := l.toInventory.offer a } := by
  have hidle := ne_idle_of_isEnd h
  rw [enqueue, isUnnamable_of_ne_idle hidle, start_of_ne_idle hidle]
  rfl

variable [Payload α] [Target α δ]

/-- Every action leaves an end an end. -/
theorem isEnd_step (h : l.stage.IsEnd) (action : Engine.Action α) :
    (l.step action).stage.IsEnd := by
  have hidle := ne_idle_of_isEnd h
  cases action with
  | start fault =>
      rw [step, start_of_ne_idle hidle]
      exact h
  | enqueue fault a =>
      rw [step, enqueue_of_isEnd h]
      exact h
  | take =>
      have hlooking : ∀ t, l.stage ≠ .looking t := by
        intro t hstage
        rw [hstage] at h
        exact h
      rw [step, take_of_ne_looking hlooking]
      exact h
  | deliver =>
      have hholding : ∀ t, l.stage ≠ .holding t := by
        intro t hstage
        rw [hstage] at h
        exact h
      rw [step, deliver_of_ne_holding hholding]
      exact h
  | shutdown =>
      simp only [step, shutdown]
      split
      · exact h
      · trivial
  | takeTarget =>
      simp only [step, takeTarget]
      split
      · trivial
      · exact h

/-- A closed gate at an end stays closed. -/
theorem not_accepting_step (h : l.stage.IsEnd) (hclosed : l.accepting = false)
    (action : Engine.Action α) : (l.step action).accepting = false := by
  cases action with
  | start fault =>
      rw [step, start_of_ne_idle (ne_idle_of_isEnd h)]
      exact hclosed
  | enqueue fault a =>
      rw [step, enqueue_of_isEnd h]
      exact (Inventory.accepting_offer l.toInventory a).trans hclosed
  | take => exact (afterWork_take l).accepting.trans hclosed
  | deliver => exact (afterWork_deliver l).accepting.trans hclosed
  | shutdown =>
      simp only [step, shutdown]
      split
      · exact hclosed
      · exact (afterWork_windDown l).accepting
  | takeTarget =>
      simp only [step, takeTarget]
      split
      · exact hclosed
      · exact hclosed

/-- An end whose gate is closed stays one. -/
theorem isEnd_run (h : l.stage.IsEnd) (hclosed : l.accepting = false)
    (actions : List (Engine.Action α)) :
    (l.run actions).stage.IsEnd ∧ (l.run actions).accepting = false := by
  induction actions generalizing l with
  | nil => exact ⟨h, hclosed⟩
  | cons action actions ih => exact ih (isEnd_step h action) (not_accepting_step h hclosed action)

end Ledger

/-! ## Refusing -/

namespace Engine

/-- The engine does not accept events, and no later offer is counted as accepted or takes a
record. -/
def Refuses [Payload α] [Target α δ] (e : Engine α δ) : Prop :=
  e.isAccepting = false ∧ ∀ (later : List (Action α)) (fault : Option IoFault) (a : α),
    ((e.run later).enqueue fault a).2.stats.enqueued = (e.run later).stats.enqueued ∧
      ((e.run later).enqueue fault a).2.availableSlots = (e.run later).availableSlots

variable [Payload α] {e : Engine α δ} {l : Ledger α δ}

/-- An engine at an end that does not accept events drops the next one. -/
theorem enqueue_of_not_accepting (h : e.Matches l) (hend : l.stage.IsEnd)
    (hclosed : l.accepting = false) (fault : Option IoFault) (a : α) :
    (e.enqueue fault a).2.stats.enqueued = e.stats.enqueued ∧
      (e.enqueue fault a).2.availableSlots = e.availableSlots := by
  have hafter := matches_enqueue h fault a
  have hrefuse : l.toInventory.offer a = l.toInventory.refuse a := by
    rcases Inventory.offer_cases l.toInventory a with ⟨hoffer, -⟩ | ⟨⟨hopen, -⟩, -⟩
    · exact hoffer
    · rw [hclosed] at hopen
      cases hopen
  rw [Ledger.enqueue_of_isEnd hend, hrefuse] at hafter
  rw [hafter.stats_eq, h.stats_eq, hafter.availableSlots_eq, h.availableSlots_eq]
  exact ⟨rfl, rfl⟩

/-- An engine at an end that accepts events puts the next one into a free record. -/
theorem enqueue_of_accepting (h : e.Matches l) (hend : l.stage.IsEnd)
    (hopen : l.accepting = true) (hfree : 0 < e.availableSlots) (fault : Option IoFault) (a : α) :
    (e.enqueue fault a).2.stats = { e.stats with enqueued := e.stats.enqueued + 1 } ∧
      (e.enqueue fault a).2.availableSlots + 1 = e.availableSlots := by
  have hafter := matches_enqueue h fault a
  rw [Ledger.enqueue_of_isEnd hend] at hafter
  rw [h.availableSlots_eq] at hfree
  rw [hafter.stats_eq, h.stats_eq, hafter.availableSlots_eq, h.availableSlots_eq]
  refine ⟨Inventory.stats_offer_of_open ⟨hopen, List.length_pos_iff.1 hfree⟩ a, ?_⟩
  rcases List.exists_cons_of_length_pos hfree with ⟨i, free, hcons⟩
  simp [Inventory.offer, hopen, hcons]

variable [Target α δ]

/-- An engine at an end that is not open refuses events for good. -/
theorem refuses_of_not_open (h : e.Matches l) (hend : l.stage.IsEnd)
    (hclosed : l.accepting = false) : e.Refuses := by
  refine ⟨h.shared.accepting.trans hclosed, ?_⟩
  intro later fault a
  rcases Ledger.isEnd_run hend hclosed later with ⟨hendLater, hclosedLater⟩
  exact enqueue_of_not_accepting (matches_run h later) hendLater hclosedLater fault a

/-- An engine whose worker could not be started, or that was shut down, refuses events exactly
if it is not one whose worker could not be named; such an engine accepts events while it has a
free record. -/
theorem refuses_iff_namable {config : Config} {target : δ} {e : Engine α δ}
    (hnew : Engine.new config target = .ok e) (actions : List (Action α))
    (hend : (e.run actions).lifecycle.IsEnd) :
    ((e.run actions).Refuses ↔
      ¬ ((e.run actions).lifecycle = .failed ∧ Config.zero ∈ config.workerName.toList)) ∧
    ((e.run actions).lifecycle = .failed → Config.zero ∈ config.workerName.toList →
      (e.run actions).isAccepting = true ∧
        (0 < (e.run actions).availableSlots → ∀ fault a,
          ((e.run actions).enqueue fault a).2.stats =
              { (e.run actions).stats with enqueued := (e.run actions).stats.enqueued + 1 } ∧
            ((e.run actions).enqueue fault a).2.availableSlots + 1 =
              (e.run actions).availableSlots)) := by
  have hmatches := matches_run (matches_new hnew) actions
  have hgated := Ledger.isGated_run config target actions
  have hconfig := (Ledger.settings_run config target actions).1
  have hstage := hmatches.stage.stage_eq
  have hendLedger : ((Ledger.new config target).run actions).stage.IsEnd := by
    rw [hstage]
    exact (Lifecycle.isEnd_stage_iff _).2 hend
  have hgate := hgated
  rw [Ledger.IsGated, hstage, hconfig] at hgate
  have hopen : (e.run actions).lifecycle = .failed → Config.zero ∈ config.workerName.toList →
      ((Ledger.new config target).run actions).accepting = true := by
    intro hfailed hname
    rw [hgate, hfailed]
    simpa [Lifecycle.stage, Stage.isOpen] using hname
  have haccepting : (e.run actions).lifecycle = .failed →
      Config.zero ∈ config.workerName.toList → (e.run actions).isAccepting = true := by
    intro hfailed hname
    exact hmatches.shared.accepting.trans (hopen hfailed hname)
  refine ⟨⟨?_, ?_⟩, ?_⟩
  · rintro ⟨hrefuses, -⟩ ⟨hfailed, hname⟩
    rw [haccepting hfailed hname] at hrefuses
    cases hrefuses
  · intro hnamable
    apply refuses_of_not_open hmatches hendLedger
    rw [hgate]
    cases hlifecycle : (e.run actions).lifecycle with
    | failed => simpa [Lifecycle.stage, Stage.isOpen, hlifecycle] using hnamable
    | stopped t => rfl
    | idle t | running worker =>
        rw [hlifecycle] at hend
        exact hend.elim
  · intro hfailed hname
    refine ⟨haccepting hfailed hname, ?_⟩
    intro hfree fault a
    exact enqueue_of_accepting hmatches hendLedger (hopen hfailed hname) hfree fault a

theorem refuses_after_failed_spawn :
    ∃ e : Engine Rehearsal.Item Rehearsal.Recorder,
      Engine.new { poolCapacity := 2 } ⟨⟨.memory .memory, .text⟩, []⟩ = .ok e ∧
        (e.run [.start (some .noThreads)]).Refuses := by
  refine ⟨_, rfl, ?_⟩
  have hnew : Engine.new (α := Rehearsal.Item) { poolCapacity := 2 }
      (⟨⟨.memory .memory, .text⟩, []⟩ : Rehearsal.Recorder) = .ok _ := rfl
  refine (refuses_iff_namable hnew [.start (some .noThreads)] trivial).1.2 ?_
  rintro ⟨-, hname⟩
  exact absurd hname (by decide)

/-- A start with a name that no thread can have leaves the engine open: the next event is
counted as accepted and takes a record. -/
theorem not_refuses_after_unnamable_start :
    ∃ e : Engine Rehearsal.Item Rehearsal.Recorder,
      Engine.new { poolCapacity := 2, workerName := "a\x00b" } ⟨⟨.memory .memory, .text⟩, []⟩ =
          .ok e ∧
        (e.run [.start none]).lifecycle = .failed ∧ (e.run [.start none]).isAccepting = true ∧
        ((e.run [.start none]).enqueue none (.event (.generic {}))).2.stats.enqueued = 1 ∧
        ((e.run [.start none]).enqueue none (.event (.generic {}))).2.availableSlots = 1 ∧
        ¬ (e.run [.start none]).Refuses := by
  refine ⟨_, rfl, rfl, rfl, rfl, rfl, ?_⟩
  rintro ⟨hclosed, -⟩
  cases hclosed

end Engine

end EventLog
