import EventLog.Proofs.Engine.Ledger

/-!
# Engines keep ledgers

An engine and a ledger match if the inventory of the ledger describes the shared state of
the engine and the stage is the one of the engine's lifecycle.  A new engine matches a new
ledger, and every step of an engine is the step of its ledger; so a whole run of an engine
is a run of its ledger.

The worker's line is part of the match: while the worker holds an event, the line is the
rendering of this event and of nothing else.

Main results:

- `Shared.holds_drainUpTo`: delivering what is queued.
- `Engine.matches_step`: every step of an engine is one of its ledger.
- `Engine.matches_run`: every run of an engine is one of its ledger.
-/

namespace EventLog

variable {α δ : Type}

/-! ## Matching -/

section Matching

variable [Payload α]

/-- A ledger shows where a worker stands. -/
def Worker.At (l : Ledger α δ) : Worker δ → Prop
  | .polling _ target => l.stage = .looking target ∧ l.held = []
  | .holding index line target =>
    l.stage = .holding target ∧ ∃ a, l.held = [(index, a)] ∧ Payload.render a = some line
  | .finished _ => False
  | .died index => l.stage = .dead ∧ ∃ a, l.held = [(index, a)]

/-- A ledger shows how a worker ended. -/
def Worker.EndedAt (l : Ledger α δ) : Worker δ → Prop
  | .finished target => l.stage = .looking target
  | .died index => l.stage = .dead ∧ ∃ a, l.held = [(index, a)]
  | _ => False

/-- A ledger shows what became of an event; `lost` is the target that was lost before. -/
def Passage.At (l : Ledger α δ) (lost : Option δ) : Passage δ → Prop
  | .through _ target => l.stage = .looking target ∧ l.held = [] ∧ l.lost = lost
  | .fatal index target =>
    l.stage = .dead ∧ l.lost = some target ∧ ∃ a, l.held = [(index, a)]

/-- A ledger shows the stage of an engine. -/
def Lifecycle.At (l : Ledger α δ) : Lifecycle δ → Prop
  | .idle target => l.stage = .idle target ∧ l.held = []
  | .running worker => worker.At l
  | .failed => l.stage = .failed
  | .stopped target => l.stage = .closed target

/-- The stage of an engine with a worker. -/
def Worker.stage : Worker δ → Stage δ
  | .polling _ target => .looking target
  | .holding _ _ target => .holding target
  | .finished target => .looking target
  | .died _ => .dead

/-- The stage of an engine. -/
def Lifecycle.stage : Lifecycle δ → Stage δ
  | .idle target => .idle target
  | .running worker => worker.stage
  | .failed => .failed
  | .stopped target => .closed target

/-- The stage of a ledger is the one of its engine. -/
theorem Lifecycle.At.stage_eq {l : Ledger α δ} {lifecycle : Lifecycle δ} (h : lifecycle.At l) :
    l.stage = lifecycle.stage := by
  cases lifecycle with
  | idle target => exact h.1
  | running worker =>
      cases worker with
      | polling line target => exact h.1
      | holding index line target => exact h.1
      | finished target => exact h.elim
      | died index => exact h.1
  | failed => exact h
  | stopped target => exact h

/-- Only the stage and what is held matter to a worker. -/
theorem Worker.At.congr {l m : Ledger α δ} {w : Worker δ} (h : w.At l) (hstage : m.stage = l.stage)
    (hheld : m.held = l.held) : w.At m := by
  unfold Worker.At at h ⊢
  rw [hstage, hheld]
  exact h

/-- A worker that holds nothing is not at the stage of one that does. -/
theorem Worker.At.ne_holding {l : Ledger α δ} {w : Worker δ} (h : w.At l)
    (hw : ∀ index line target, w ≠ .holding index line target) (t : δ) :
    l.stage ≠ .holding t := by
  intro hstage
  cases w with
  | holding index line target => exact hw index line target rfl
  | polling line target => cases hstage.symm.trans h.1
  | finished target => exact h
  | died index => cases hstage.symm.trans h.1

/-- Only the stage and what is held matter to a lifecycle. -/
theorem Lifecycle.At.congr {l m : Ledger α δ} {lifecycle : Lifecycle δ} (h : lifecycle.At l)
    (hstage : m.stage = l.stage) (hheld : m.held = l.held) : lifecycle.At m := by
  cases lifecycle with
  | running worker => exact Worker.At.congr h hstage hheld
  | idle target => exact ⟨hstage.trans h.1, hheld.trans h.2⟩
  | failed => exact hstage.trans h
  | stopped target => exact hstage.trans h

/-- A ledger describes an engine. -/
structure Engine.Matches (e : Engine α δ) (l : Ledger α δ) : Prop where
  config : e.config = l.config
  /-- What producers and worker share. -/
  shared : e.shared.Holds l.toInventory
  stage : e.lifecycle.At l
  /-- The target, once it was lost. -/
  lost : e.lost = l.lost
  /-- An idle engine starts with its first event. -/
  unstarted : ∀ target, e.lifecycle = .idle target → e.started = false

end Matching

/-! ## Parts of the shared state -/

namespace Shared

variable {s : Shared α} {b : Inventory α}

/-- Whether events are accepted is no matter of places. -/
theorem holds_setAccepting (h : s.Holds b) (accepting running : Bool) :
    ({ s with accepting, running } : Shared α).Holds { b with accepting } :=
  ⟨h.capacity, rfl, h.stack, h.queue, h.slots, h.places, h.stub, h.slots_size, h.links_size,
    h.stats, h.destroyed, h.unbroken⟩

/-- The event of a call that does not return is destroyed and not counted. -/
theorem holds_destroy (h : s.Holds b) (a : α) :
    (s.destroy a).Holds { b with unreturned := b.unreturned ++ [a] } where
  capacity := h.capacity
  accepting := h.accepting
  stack := h.stack
  queue := h.queue
  slots := h.slots
  places := h.places
  stub := h.stub
  slots_size := h.slots_size
  links_size := h.links_size
  stats := h.stats
  destroyed := by
    have hlast : (a :: b.destroyed).Perm (b.destroyed ++ [a]) :=
      (List.perm_append_singleton a b.destroyed).symm
    refine (h.destroyed.cons a).trans ?_
    simpa [Inventory.destroyed] using hlast
  unbroken := h.unbroken

/-! ## The way of an event -/

section Delivery

variable [Payload α] {l : Ledger α δ} {index : Nat} {a : α} {line : Text} {target : δ}

/-- A line holds the rendering of its event only. -/
theorem prepare_of_holds (h : s.Holds b) (ha : (index, a) ∈ b.occupied) (line : Text) :
    s.prepare index line = Payload.render a := by
  rw [prepare, (h.slots index a).2 ha]
  cases hrender : Payload.render a with
  | none => simp [hrender]
  | some rendered => simp [hrender, emptied]

variable [Target α δ]

/-- The delivery of the event that a worker holds. -/
theorem holds_complete (h : s.Holds l.toInventory) (hstage : l.stage = .holding target)
    (hheld : l.held = [(index, a)]) (hrender : Payload.render a = some line) (side : Side) :
    (s.complete side index line target).1.Holds l.deliver.toInventory ∧
      (s.complete side index line target).2.At l.deliver l.lost := by
  have hocc : (index, a) ∈ l.toInventory.occupied := by
    simp [Inventory.occupied, hheld]
  have hslot : s.slots.payload? index = some a := (h.slots index a).2 hocc
  cases hdeliver : Target.deliver a line target with
  | none =>
      have hhanded : handOver a target = none := by simp [handOver, hrender, hdeliver]
      have hcomplete : s.complete side index line target = (s, .fatal index target) := by
        simp [complete, hslot, hdeliver]
      rw [hcomplete, Ledger.deliver_of_handOver_none hstage hheld hhanded]
      exact ⟨h, rfl, rfl, a, hheld⟩
  | some outcome =>
      rcases outcome with ⟨u, remarks⟩
      have hhanded : handOver a target = some u := by simp [handOver, hrender, hdeliver]
      have hcomplete : s.complete side index line target =
          ((s.remarkAll side remarks).retire index, .through line u) := by
        simp [complete, hslot, hdeliver]
      rw [hcomplete, Ledger.deliver_of_handOver_some hstage hheld hhanded]
      exact ⟨holds_retire (holds_remarkAll h side remarks) hheld, rfl, rfl, rfl⟩

/-- A round of draining takes the oldest event and delivers it. -/
theorem holds_deliverRecord {queued : List (Nat × α)} (h : s.Holds l.toInventory)
    (hstage : l.stage = .looking target) (hheld : l.held = [])
    (hqueued : l.queued = (index, a) :: queued) (side : Side) (line : Text) :
    ∃ t, s.takeOldest = (some index, t) ∧
      (t.deliverRecord side index line target).1.Holds l.take.deliver.toInventory ∧
      (t.deliverRecord side index line target).2.At l.take.deliver l.lost := by
  rcases holds_takeOldest h hqueued with ⟨t, htake, ht⟩
  have hocc : (index, a) ∈ ({ l.toInventory with
      queued, held := (index, a) :: l.held } : Inventory α).occupied := by
    simp [Inventory.occupied]
  refine ⟨t, htake, ?_⟩
  rw [deliverRecord, prepare_of_holds ht hocc]
  cases hrender : Payload.render a with
  | none =>
      rw [Ledger.take_of_render_none hstage hqueued hrender,
        Ledger.deliver_of_ne_holding (by simp)]
      exact ⟨ht, rfl, rfl, a, by simp [hheld]⟩
  | some rendered =>
      rw [Ledger.take_of_render_some hstage hqueued hrender]
      exact holds_complete (l := { l with
        queued, held := (index, a) :: l.held, stage := .holding target }) ht rfl
        (by simp [hheld]) hrender side

/-- Delivering what is queued. -/
theorem holds_drainUpTo (fuel : Nat) (h : s.Holds l.toInventory)
    (hstage : l.stage = .looking target) (hheld : l.held = []) (side : Side) (line : Text) :
    (s.drainUpTo side fuel line target).1.Holds (l.drain fuel).toInventory ∧
      (s.drainUpTo side fuel line target).2.At (l.drain fuel) l.lost := by
  induction fuel generalizing s l line target with
  | zero => exact ⟨h, hstage, hheld, rfl⟩
  | succ fuel ih =>
      rw [drainUpTo, Ledger.drain]
      cases hqueued : l.queued with
      | nil =>
          have hround : l.take.deliver = l := by
            rw [Ledger.take_of_queued_nil hqueued, Ledger.deliver_of_ne_holding (by simp [hstage])]
          rw [takeOldest_of_queued_nil h hqueued, hround, Ledger.drain_of_queued_nil hstage hqueued]
          exact ⟨h, hstage, hheld, rfl⟩
      | cons p queued =>
          rcases p with ⟨index, a⟩
          rcases holds_deliverRecord h hstage hheld hqueued side line with ⟨t, htake, hshared, hat⟩
          rw [htake]
          simp only
          cases hround : t.deliverRecord side index line target with
          | mk u passage =>
              rw [hround] at hshared hat
              cases passage with
              | through line target =>
                  rcases hat with ⟨hlooking, hempty, hlost⟩
                  have hrest := ih hshared hlooking hempty line
                  rw [hlost] at hrest
                  exact hrest
              | fatal index target =>
                  rw [Ledger.drain_of_dead hat.1]
                  exact ⟨hshared, hat⟩

end Delivery

end Shared

/-! ## The worker -/

namespace Worker

variable [Payload α] {s : Shared α} {l : Ledger α δ} {w : Worker δ}

/-- A ledger describes where a step of a worker leads to. -/
structure Progress.Matches (p : Progress α δ) (l : Ledger α δ) (lost : Option δ) : Prop where
  shared : p.shared.Holds l.toInventory
  worker : p.worker.At l
  lost : p.lost.or lost = l.lost

/-- A worker takes the event that its ledger takes. -/
theorem matches_take (h : s.Holds l.toInventory) (hw : w.At l) :
    (take s w).Matches l.take l.lost := by
  cases w with
  | polling line target =>
      rcases hw with ⟨hstage, hheld⟩
      rw [take]
      cases hqueued : l.queued with
      | nil =>
          rw [Shared.takeOldest_of_queued_nil h hqueued, Ledger.take_of_queued_nil hqueued]
          exact ⟨h, ⟨hstage, hheld⟩, rfl⟩
      | cons p queued =>
          rcases p with ⟨index, a⟩
          rcases Shared.holds_takeOldest h hqueued with ⟨t, htake, ht⟩
          have hocc : (index, a) ∈ ({ l.toInventory with
              queued, held := (index, a) :: l.held } : Inventory α).occupied := by
            simp [Inventory.occupied]
          rw [htake]
          simp only [Shared.prepare_of_holds ht hocc]
          cases hrender : Payload.render a with
          | none =>
              rw [Ledger.take_of_render_none hstage hqueued hrender]
              exact ⟨ht, ⟨rfl, a, by simp [hheld]⟩, rfl⟩
          | some rendered =>
              rw [Ledger.take_of_render_some hstage hqueued hrender]
              exact ⟨ht, ⟨rfl, a, by simp [hheld], hrender⟩, rfl⟩
  | holding index line target =>
      rw [take, Ledger.take_of_ne_looking (by simp [hw.1])]
      · exact ⟨h, hw, rfl⟩
      · simp
  | finished target => exact hw.elim
  | died index =>
      rw [take, Ledger.take_of_ne_looking (by simp [hw.1])]
      · exact ⟨h, hw, rfl⟩
      · simp

variable [Target α δ]

/-- A worker delivers the event that its ledger delivers. -/
theorem matches_deliver (h : s.Holds l.toInventory) (hw : w.At l) :
    (deliver s w).Matches l.deliver l.lost := by
  cases w with
  | holding index line target =>
      rcases hw with ⟨hstage, a, hheld, hrender⟩
      rcases Shared.holds_complete h hstage hheld hrender .worker with ⟨hshared, hat⟩
      rw [deliver]
      cases hcomplete : s.complete .worker index line target with
      | mk t passage =>
          rw [hcomplete] at hshared hat
          cases passage with
          | through line target => exact ⟨hshared, ⟨hat.1, hat.2.1⟩, hat.2.2.symm⟩
          | fatal index target => exact ⟨hshared, ⟨hat.1, hat.2.2⟩, by simp [afterPassage, hat.2.1]⟩
  | polling line target =>
      rw [deliver, Ledger.deliver_of_ne_holding (by simp [hw.1])]
      · exact ⟨h, hw, rfl⟩
      · simp
  | finished target => exact hw.elim
  | died index =>
      rw [deliver, Ledger.deliver_of_ne_holding (by simp [hw.1])]
      · exact ⟨h, hw, rfl⟩
      · simp

/-- A ledger describes the end of a worker. -/
structure Progress.Ends (p : Progress α δ) (l : Ledger α δ) (lost : Option δ) : Prop where
  shared : p.shared.Holds l.toInventory
  worker : p.worker.EndedAt l
  lost : p.lost.or lost = l.lost

/-- A worker that does not hold an event delivers what is queued, if it should, and ends. -/
theorem ends_windDown (name : String) (drains : Bool) (h : s.Holds l.toInventory) (hw : w.At l)
    (hfree : ∀ t, l.stage ≠ .holding t) :
    (windDown name drains s w).Ends (if drains then l.drain l.capacity else l) l.lost := by
  cases w with
  | polling line target =>
      rcases hw with ⟨hstage, hheld⟩
      rw [windDown]
      cases drains with
      | false => exact ⟨Shared.holds_remark h _ _, hstage, rfl⟩
      | true =>
          have hcapacity : s.capacity = l.capacity := h.capacity
          obtain ⟨hshared, hat⟩ :=
            Shared.holds_drainUpTo l.capacity h hstage hheld .worker line
          rw [if_pos rfl, if_pos rfl, Shared.drain, hcapacity]
          cases hdrain : s.drainUpTo .worker l.capacity line target with
          | mk t passage =>
              rw [hdrain] at hshared hat
              cases passage with
              | through line target =>
                  exact ⟨Shared.holds_remark hshared _ _, hat.1, hat.2.2.symm⟩
              | fatal index target =>
                  exact ⟨hshared, ⟨hat.1, hat.2.2⟩, by simp [hat.2.1]⟩
  | holding index line target => exact absurd hw.1 (hfree target)
  | finished target => exact hw.elim
  | died index =>
      have hrest : (if drains then l.drain l.capacity else l) = l := by
        rw [Ledger.drain_of_dead hw.1, ite_self]
      rw [windDown, hrest]
      · exact ⟨h, hw, rfl⟩
      · simp

omit [Payload α] in
/-- After a delivery a worker holds nothing; the target is lost only with the worker. -/
theorem deliver_cases (s : Shared α) (w : Worker δ) :
    (∃ index, (deliver s w).worker = .died index) ∨
      (deliver s w).lost = none ∧ ∀ index line target,
        (deliver s w).worker ≠ .holding index line target := by
  cases w with
  | holding index line target =>
      rw [deliver]
      cases s.complete .worker index line target with
      | mk t passage =>
          cases passage with
          | through line target => exact Or.inr ⟨rfl, by simp [afterPassage]⟩
          | fatal index target => exact Or.inl ⟨index, rfl⟩
  | polling line target => exact Or.inr ⟨rfl, by simp [deliver]⟩
  | finished target => exact Or.inr ⟨rfl, by simp [deliver]⟩
  | died index => exact Or.inl ⟨index, rfl⟩

/-- A worker that is not to go on does the last work of its ledger. -/
theorem ends_finish (name : String) (drains : Bool) (h : s.Holds l.toInventory) (hw : w.At l) :
    (finish name drains s w).Ends
      (if drains then l.deliver.drain l.capacity else l.deliver) l.lost := by
  have hdeliver := matches_deliver h hw
  have hcapacity : l.deliver.capacity = l.capacity := (Ledger.afterWork_deliver l).capacity
  have hrest := ends_windDown name drains hdeliver.shared hdeliver.worker
  rw [finish]
  rcases deliver_cases s w with ⟨index, hdied⟩ | ⟨hlost, hholding⟩
  · have hdead : l.deliver.stage = .dead ∧ ∃ a, l.deliver.held = [(index, a)] := by
      have hat := hdeliver.worker
      rw [hdied] at hat
      exact hat
    have hwind : windDown name drains (deliver s w).shared (deliver s w).worker =
        ⟨(deliver s w).shared, (deliver s w).worker, none⟩ := by
      rw [hdied]
      rfl
    rw [Ledger.drain_of_dead hdead.1, ite_self]
    cases hlost : (deliver s w).lost with
    | some target =>
        refine ⟨hdeliver.shared, ?_, hdeliver.lost⟩
        simp only [hdied]
        exact hdead
    | none =>
        simp only [hwind]
        refine ⟨hdeliver.shared, ?_, ?_⟩
        · simp only [hdied]
          exact hdead
        · have hsame := hdeliver.lost
          rw [hlost] at hsame
          exact hsame
  · have hfree : ∀ t, l.deliver.stage ≠ .holding t := hdeliver.worker.ne_holding hholding
    have hsame : l.deliver.lost = l.lost := by
      have hsame := hdeliver.lost
      rw [hlost] at hsame
      exact hsame.symm
    have hend := hrest hfree
    rw [hcapacity, hsame] at hend
    simp only [hlost]
    exact hend

end Worker

/-! ## Engines -/

namespace Engine

variable [Payload α] {e : Engine α δ} {l : Ledger α δ}

theorem matches_remark (h : e.Matches l) (side : Side) (d : Diagnostic) :
    (e.remark side d).Matches l :=
  ⟨h.config, Shared.holds_remark h.shared side d, h.stage, h.lost, h.unstarted⟩

/-- A new engine matches a new ledger. -/
theorem matches_new {config : Config} {target : δ} (h : Engine.new config target = .ok e) :
    e.Matches (Ledger.new config target) := by
  unfold Engine.new at h
  split at h
  · cases h
  next shared hshared =>
    cases h
    exact ⟨rfl, Shared.holds_new hshared, ⟨rfl, rfl⟩, rfl, fun _ _ => rfl⟩

/-- The ledger of an engine is idle only if the engine is. -/
theorem Matches.ne_idle (h : e.Matches l) (hidle : ∀ target, e.lifecycle ≠ .idle target) (t : δ) :
    l.stage ≠ .idle t := by
  rw [h.stage.stage_eq]
  cases hlifecycle : e.lifecycle with
  | idle target => exact absurd hlifecycle (hidle target)
  | running worker => cases worker <;> simp [Lifecycle.stage, Worker.stage]
  | failed | stopped target => simp [Lifecycle.stage]

/-! ### Starts -/

omit [Payload α] in
/-- A start does nothing to an engine that is not idle. -/
theorem start_of_ne_idle (hidle : ∀ target, e.lifecycle ≠ .idle target)
    (fault : Option IoFault) : (e.start fault).2 = e ∧ ∀ p, (e.start fault).1 ≠ .panicked p := by
  unfold start
  split
  next target h => exact absurd h (hidle target)
  next => exact ⟨rfl, by simp⟩
  next => exact ⟨rfl, by simp⟩
  next => exact ⟨rfl, by simp⟩

theorem matches_start (h : e.Matches l) (fault : Option IoFault) :
    (e.start fault).2.Matches (l.start fault) := by
  have hconfig := h.config
  by_cases hidle : ∀ target, e.lifecycle ≠ .idle target
  · rw [(start_of_ne_idle hidle fault).1, Ledger.start_of_ne_idle (h.ne_idle hidle)]
    exact h
  · obtain ⟨target, hlifecycle⟩ : ∃ target, e.lifecycle = .idle target := by
      simpa using hidle
    have hstage := h.stage
    rw [hlifecycle] at hstage
    rcases hstage with ⟨hstage, hheld⟩
    rw [Ledger.start, hstage, ← hconfig]
    by_cases hname : Config.zero ∈ e.config.workerName.toList
    · simp only [start, hlifecycle, hname, if_true]
      exact ⟨rfl, h.shared, rfl, rfl, by simp⟩
    · cases fault with
      | none =>
          simp only [start, hlifecycle, hname, if_false]
          apply matches_remark
          exact ⟨rfl, h.shared, ⟨rfl, hheld⟩, h.lost, by simp⟩
      | some cause =>
          simp only [start, hlifecycle, hname, if_false]
          apply matches_remark
          exact ⟨rfl, Shared.holds_setAccepting h.shared false _, rfl, rfl, by simp⟩

/-- Starting before an event is a start. -/
theorem ensureStarted_eq_start (h : e.Matches l) (fault : Option IoFault) :
    (e.ensureStarted fault).2 = (e.start fault).2 := by
  unfold ensureStarted
  split
  next hstarted =>
    have hidle : ∀ target, e.lifecycle ≠ .idle target := by
      intro target hlifecycle
      have hunstarted := h.unstarted target hlifecycle
      rw [hstarted] at hunstarted
      cases hunstarted
    exact (start_of_ne_idle hidle fault).1.symm
  next => rfl

/-- The ledger tells whether starting before an event returns. -/
theorem ensureStarted_panics_iff (h : e.Matches l) (fault : Option IoFault) :
    (∃ p, (e.ensureStarted fault).1 = .panicked p) ↔ l.isUnnamable = true := by
  by_cases hidle : ∀ target, e.lifecycle ≠ .idle target
  · rw [Ledger.isUnnamable_of_ne_idle (h.ne_idle hidle)]
    simp only [Bool.false_eq_true, iff_false, not_exists]
    intro p
    unfold ensureStarted
    split
    · simp
    · exact (start_of_ne_idle hidle fault).2 p
  · obtain ⟨target, hlifecycle⟩ : ∃ target, e.lifecycle = .idle target := by
      simpa using hidle
    have hstage := h.stage
    have hstarted := h.unstarted target hlifecycle
    rw [hlifecycle] at hstage
    rw [Ledger.isUnnamable, hstage.1, ← h.config]
    by_cases hname : Config.zero ∈ e.config.workerName.toList
    · simp [ensureStarted, hstarted, start, hlifecycle, hname]
    · cases fault <;> simp [ensureStarted, hstarted, start, hlifecycle, hname]

/-- The call of `enqueue` returns unless the worker cannot be named. -/
theorem enqueue_panics_iff (h : e.Matches l) (fault : Option IoFault) (a : α) :
    (∃ p, (e.enqueue fault a).1 = .panicked p) ↔ l.isUnnamable = true := by
  rw [← ensureStarted_panics_iff h fault, enqueue]
  cases e.ensureStarted fault with
  | mk reply f => cases reply <;> simp

theorem matches_enqueue (h : e.Matches l) (fault : Option IoFault) (a : α) :
    (e.enqueue fault a).2.Matches (l.enqueue fault a) := by
  have hpanics := ensureStarted_panics_iff h fault
  have hstart := matches_start h fault
  rw [← ensureStarted_eq_start h fault] at hstart
  rw [enqueue, Ledger.enqueue]
  cases hensure : e.ensureStarted fault with
  | mk reply f =>
      rw [hensure] at hpanics hstart
      cases reply with
      | panicked p =>
          rw [if_pos (hpanics.1 ⟨p, rfl⟩)]
          exact ⟨hstart.config, Shared.holds_destroy hstart.shared a, hstart.stage, hstart.lost,
            hstart.unstarted⟩
      | done | refused fault =>
          have hnamable : ¬ l.isUnnamable = true := by
            rw [← hpanics]
            simp
          rw [if_neg hnamable]
          exact ⟨hstart.config, Shared.holds_offer hstart.shared a,
            hstart.stage.congr rfl (Inventory.held_offer _ a), hstart.lost, hstart.unstarted⟩

/-! ### Work -/

section Work

theorem matches_afterProgress {p : Worker.Progress α δ} {m : Ledger α δ} (h : e.Matches l)
    (hp : p.Matches m l.lost) (hconfig : m.config = l.config) : (e.afterProgress p).Matches m where
  config := h.config.trans hconfig.symm
  shared := hp.shared
  stage := hp.worker
  lost := by
    rw [afterProgress, h.lost]
    exact hp.lost
  unstarted := by simp [afterProgress]

theorem matches_workerTake (h : e.Matches l) : e.workerTake.Matches l.take := by
  have hstage := h.stage
  cases hlifecycle : e.lifecycle with
  | running worker =>
      rw [hlifecycle] at hstage
      rw [workerTake, hlifecycle]
      exact matches_afterProgress h (Worker.matches_take h.shared hstage)
        (Ledger.afterWork_take l).config
  | idle target | failed | stopped target =>
      have hledger : l.take = l := by
        apply Ledger.take_of_ne_looking
        simp [hstage.stage_eq, hlifecycle, Lifecycle.stage]
      rw [workerTake, hledger, hlifecycle]
      exact h

variable [Target α δ]

theorem matches_workerDeliver (h : e.Matches l) : e.workerDeliver.Matches l.deliver := by
  have hstage := h.stage
  cases hlifecycle : e.lifecycle with
  | running worker =>
      rw [hlifecycle] at hstage
      rw [workerDeliver, hlifecycle]
      exact matches_afterProgress h (Worker.matches_deliver h.shared hstage)
        (Ledger.afterWork_deliver l).config
  | idle target | failed | stopped target =>
      have hledger : l.deliver = l := by
        apply Ledger.deliver_of_ne_holding
        simp [hstage.stage_eq, hlifecycle, Lifecycle.stage]
      rw [workerDeliver, hledger, hlifecycle]
      exact h

end Work

/-! ### Shutdowns -/

/-- The rest is discarded. -/
theorem matches_conclude {target : Option δ} (hconfig : e.config = l.config)
    (hshared : e.shared.Holds l.toInventory) (hlost : e.lost = l.lost)
    (htarget : l.stage.target? = target) : (e.conclude target).Matches l.conclude := by
  have hdiscard := Shared.holds_discardAll hshared
  unfold conclude
  apply matches_remark
  cases hall : e.shared.discardAll with
  | mk count shared =>
      rw [hall] at hdiscard
      simp only [discardRest, hall]
      refine ⟨?_, ?_, ?_, ?_, by simp⟩
      · split <;> exact hconfig
      · split
        · exact Shared.holds_remark hdiscard.2 _ _
        · exact hdiscard.2
      · simp [Lifecycle.At, Ledger.conclude, htarget]
      · split <;> exact hlost

/-- What follows the end of a worker. -/
theorem matches_conclude_of_ended {p : Worker.Progress α δ} (hconfig : e.config = l.config)
    (hp : p.Ends l e.lost) :
    (match p.worker with
      | .finished target => (e.afterProgress p).conclude (some target)
      | _ => ((e.afterProgress p).remark .caller .workerPanicked).conclude none).Matches
      l.conclude := by
  have hshared : (e.afterProgress p).shared.Holds l.toInventory := hp.shared
  have hlost : (e.afterProgress p).lost = l.lost := hp.lost
  have hworker := hp.worker
  cases hended : p.worker with
  | finished target =>
      rw [hended] at hworker
      have hlooking : l.stage = .looking target := hworker
      exact matches_conclude hconfig hshared hlost (by rw [hlooking]; rfl)
  | died index =>
      rw [hended] at hworker
      have hdead : l.stage = .dead := hworker.1
      refine matches_conclude hconfig (Shared.holds_remark hshared _ _) hlost ?_
      rw [hdead]
      rfl
  | polling line target =>
      rw [hended] at hworker
      exact hworker.elim
  | holding index line target =>
      rw [hended] at hworker
      exact hworker.elim

theorem matches_takeTarget (h : e.Matches l) : e.takeTarget.2.Matches l.takeTarget := by
  have hstage := h.stage.stage_eq
  cases hlifecycle : e.lifecycle with
  | stopped target =>
      have hclosed : l.stage = .closed target := by
        rw [hstage, hlifecycle, Lifecycle.stage]
      rw [takeTarget, hlifecycle, Ledger.takeTarget, hclosed]
      cases target with
      | none => exact ⟨h.config, h.shared, hclosed, h.lost, by simp⟩
      | some t => exact ⟨h.config, h.shared, rfl, h.lost, by simp⟩
  | idle target | failed =>
      rw [takeTarget, hlifecycle, Ledger.takeTarget, hstage, hlifecycle]
      exact h
  | running worker =>
      rw [takeTarget, hlifecycle, Ledger.takeTarget, hstage, hlifecycle]
      cases worker <;> exact h

theorem holds_close (h : e.Matches l) : e.close.shared.Holds l.close.toInventory :=
  Shared.holds_setAccepting h.shared false false

variable [Target α δ]

/-- The worker that is shut down does the last work of its ledger. -/
theorem ends_shutdown {worker : Worker δ} (h : e.Matches l)
    (hrunning : e.lifecycle = .running worker) :
    (∀ t, l.stage ≠ .closed t) ∧
      (worker.finish e.config.workerName e.config.drainOnShutdown e.close.shared).Ends
        l.windDown e.close.lost := by
  have hstage := h.stage
  rw [hrunning] at hstage
  have hopen : ∀ t, l.stage ≠ .closed t := by
    intro t
    rw [hstage.stage_eq]
    cases worker <;> simp [Lifecycle.stage, Worker.stage]
  have hsame : l.close.stage = l.stage := by
    rw [Ledger.close, hstage.stage_eq]
    cases worker <;> rfl
  have hat : worker.At l.close := Worker.At.congr hstage hsame rfl
  have hend :=
    Worker.ends_finish e.config.workerName e.config.drainOnShutdown (holds_close h) hat
  have hwind : (if e.config.drainOnShutdown then l.close.deliver.drain l.close.capacity
      else l.close.deliver) = l.windDown := by
    rw [Ledger.windDown, ← h.config]
    rfl
  rw [hwind, show l.close.lost = e.close.lost from h.lost.symm] at hend
  exact ⟨hopen, hend⟩

theorem matches_shutdown (h : e.Matches l) : e.shutdown.Matches l.shutdown := by
  have hstage := h.stage
  have hshared := holds_close h
  have hconfig := h.config
  cases hlifecycle : e.lifecycle with
  | stopped target =>
      rw [shutdown, hlifecycle, Ledger.shutdown, hstage.stage_eq, hlifecycle]
      exact h
  | failed =>
      have hfailed : l.stage = .failed := by
        rw [hstage.stage_eq, hlifecycle, Lifecycle.stage]
      have hclose : l.close.stage = .failed := by
        rw [Ledger.close, hfailed]
      rw [shutdown, hlifecycle, Ledger.shutdown, hfailed]
      simp only [Ledger.windDown_of_failed hfailed]
      exact matches_conclude hconfig hshared h.lost (by rw [hclose]; rfl)
  | idle target =>
      rw [hlifecycle] at hstage
      rcases hstage with ⟨hidle, hheld⟩
      have hclose : l.close.stage = .looking target := by
        rw [Ledger.close, hidle]
      have hdeliver : l.close.deliver = l.close :=
        Ledger.deliver_of_ne_holding (by simp [hclose])
      have hcapacity : e.close.shared.capacity = l.capacity := hshared.capacity
      rw [shutdown, hlifecycle, Ledger.shutdown, hidle]
      simp only [Ledger.windDown, hdeliver, ← hconfig]
      cases hdrains : e.config.drainOnShutdown with
      | false =>
          have hflag : e.close.config.drainOnShutdown = false := hdrains
          simp only [hflag, Bool.false_eq_true, if_false]
          exact matches_conclude hconfig hshared h.lost (by rw [hclose]; rfl)
      | true =>
          have hflag : e.close.config.drainOnShutdown = true := hdrains
          obtain ⟨hdrained, hat⟩ :=
            Shared.holds_drainUpTo l.capacity hshared hclose hheld .caller []
          have hafter := (Ledger.afterWork_drain l.capacity l.close).config
          simp only [hflag, if_true, Shared.drain, hcapacity]
          cases hdrain : e.close.shared.drainUpTo .caller l.capacity [] target with
          | mk shared passage =>
              rw [hdrain] at hdrained hat
              cases passage with
              | through line target =>
                  refine matches_conclude (hconfig.trans hafter.symm) hdrained ?_ ?_
                  · exact h.lost.trans hat.2.2.symm
                  · rw [hat.1]
                    rfl
              | fatal index target =>
                  refine matches_conclude (hconfig.trans hafter.symm) hdrained ?_ ?_
                  · exact hat.2.1.symm
                  · rw [hat.1]
                    rfl
  | running worker =>
      rcases ends_shutdown h hlifecycle with ⟨hopen, hend⟩
      have hsettings : e.config = l.windDown.config :=
        hconfig.trans (Ledger.afterWork_windDown l).config.symm
      rw [shutdown, hlifecycle, Ledger.shutdown_of_ne_closed hopen]
      exact matches_conclude_of_ended hsettings hend

/-! ## Runs -/

/-- Every step of an engine is one of its ledger. -/
theorem matches_step (h : e.Matches l) (action : Action α) :
    (e.step action).Matches (l.step action) := by
  cases action with
  | start fault => exact matches_start h fault
  | enqueue fault a => exact matches_enqueue h fault a
  | take => exact matches_workerTake h
  | deliver => exact matches_workerDeliver h
  | shutdown => exact matches_shutdown h
  | takeTarget => exact matches_takeTarget h

/-- Every run of an engine is one of its ledger. -/
theorem matches_run (h : e.Matches l) (actions : List (Action α)) :
    (e.run actions).Matches (l.run actions) := by
  induction actions generalizing e l with
  | nil => exact h
  | cons action actions ih => exact ih (matches_step h action)

end Engine

end EventLog
