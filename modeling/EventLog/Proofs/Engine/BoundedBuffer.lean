import EventLog.Proofs.Engine.History
import EventLog.Rehearsal.Recorder

/-!
# An engine is a bounded buffer

Where threads can be made and no event fails, an engine is a first-in-first-out buffer
with as many places as it has records.  An event is accepted while a place is free and the
engine is not shut down; the target is handed the accepted events one by one and in order,
each with the line of its own; and a shutdown hands over the rest, or discards it.

Main results:

- `Ledger.healthy_run`: no worker of such a run dies, and none is missing.
- `Engine.isBuffer_run`: the state after any run, as a state of a bounded buffer.
-/

namespace EventLog

variable {α δ : Type}

/-! ## Events and actions without failures -/

section Survivable

variable [Payload α] [Target α δ]

/-- Rendering the event returns, and every target takes it. -/
def Survivable (δ : Type) [Target α δ] (a : α) : Prop :=
  ∀ target : δ, (handOver a target).isSome = true

/-- The action meets no failure of threads or events. -/
def Engine.Action.IsSmooth (δ : Type) [Target α δ] : Engine.Action α → Prop
  | .start fault => fault = none
  | .enqueue fault a => fault = none ∧ Survivable δ a
  | _ => True

end Survivable

/-! ## Bounded buffers -/

namespace Engine

/-- The number of events that the worker holds. -/
def inHand (e : Engine α δ) : Nat :=
  match e.lifecycle with
  | .running (.holding _ _ _) => 1
  | _ => 0

/-- The number of events that are delivered once an engine is shut down of whose accepted
events the number is known. -/
def writtenByShutdown (e : Engine α δ) (accepted : Nat) : Nat :=
  if e.config.drainOnShutdown then accepted else e.stats.written + e.inHand

/-- After actions in which some events were accepted and some targets handed back, an engine
is a bounded buffer. -/
structure IsBuffer [Payload α] [Target α δ] (e : Engine α δ) (config : Config) (target : δ)
    (actions : List (Action α)) (accepted : List α) (taken : List δ) : Prop where
  /-- The counter of the accepted events. -/
  enqueued : e.stats.enqueued = accepted.length
  /-- Only accepted events are delivered. -/
  written_le : e.stats.written ≤ accepted.length
  /-- The target was handed the first accepted events with their lines, and nothing else. -/
  received : ∃ t, handOverAll (accepted.take e.stats.written) target = some t ∧
    e.target?.toList ++ taken = [t]
  /-- Events are accepted until the shutdown. -/
  accepting_iff : e.isAccepting = true ↔ .shutdown ∉ actions
  /-- The accepted events that are not delivered are in one record each. -/
  slots : .shutdown ∉ actions →
    e.availableSlots + (accepted.length - e.stats.written) = config.poolCapacity
  /-- With a free place the next event is accepted. -/
  accepts : .shutdown ∉ actions → accepted.length - e.stats.written < config.poolCapacity →
    ∀ a, (e.enqueue none a).2.stats = { e.stats with enqueued := e.stats.enqueued + 1 }
  /-- Without a free place, or after the shutdown, the next event is dropped. -/
  drops : (.shutdown ∈ actions ∨ config.poolCapacity ≤ accepted.length - e.stats.written) →
    ∀ a, (e.enqueue none a).2.stats = { e.stats with dropped := e.stats.dropped + 1 }
  /-- A shutdown delivers what it has to and drops the rest. -/
  shutdown_stats : .shutdown ∉ actions → e.shutdown.stats =
    { enqueued := accepted.length
      written := e.writtenByShutdown accepted.length
      dropped := e.stats.dropped + (accepted.length - e.writtenByShutdown accepted.length) }
  /-- After the shutdown all records are free, and all events are delivered if they should. -/
  settled : .shutdown ∈ actions → e.availableSlots = config.poolCapacity ∧
    (config.drainOnShutdown = true → e.stats.written = accepted.length)

end Engine

/-! ## Healthy ledgers -/

namespace Ledger

variable [Payload α] [Target α δ] {l : Ledger α δ} {target : δ}

/-- No worker died and none is missing. -/
structure Healthy (l : Ledger α δ) : Prop where
  namable : Config.zero ∉ l.config.workerName.toList
  alive : l.stage ≠ .dead
  started : l.stage ≠ .failed
  lost : l.lost = none
  survivable : ∀ a ∈ l.accepted, Survivable δ a
  settled : ∀ t, l.stage = .closed t →
    l.held = [] ∧ (l.config.drainOnShutdown = true → l.discarded = [])

theorem healthy_take (h : l.Healthy) (hsound : l.Sound target) : l.take.Healthy := by
  by_cases hlooking : ∃ t, l.stage = .looking t
  · rcases hlooking with ⟨t, hstage⟩
    cases hqueued : l.queued with
    | nil =>
        rw [take_of_queued_nil hqueued]
        exact h
    | cons p queued =>
        rcases p with ⟨i, a⟩
        have haccepted : a ∈ l.accepted := by
          rw [hsound.flow, hqueued]
          simp
        have hsurvives := h.survivable a haccepted t
        cases hrender : Payload.render a with
        | none => simp [handOver, hrender] at hsurvives
        | some line =>
            rw [take_of_render_some hstage hqueued hrender]
            exact ⟨h.namable, by simp, by simp, h.lost, h.survivable, by simp⟩
  · rw [take_of_ne_looking (by simpa using hlooking)]
    exact h

/-- A healthy worker that holds an event delivers it. -/
theorem delivers_of_healthy (h : l.Healthy) (hsound : l.Sound target) {t : δ}
    (hstage : l.stage = .holding t) :
    ∃ i a held u, l.held = (i, a) :: held ∧ handOver a t = some u := by
  have hfits := hsound.fits
  simp only [Fits, hstage] at hfits
  rcases List.length_eq_one_iff.1 hfits.1 with ⟨⟨i, a⟩, hheld⟩
  have haccepted : a ∈ l.accepted := by
    rw [hsound.flow, hheld]
    simp
  rcases Option.isSome_iff_exists.1 (h.survivable a haccepted t) with ⟨u, hu⟩
  exact ⟨i, a, [], u, hheld, hu⟩

theorem healthy_deliver (h : l.Healthy) (hsound : l.Sound target) : l.deliver.Healthy := by
  by_cases hholding : ∃ t, l.stage = .holding t
  · rcases hholding with ⟨t, hstage⟩
    rcases delivers_of_healthy h hsound hstage with ⟨i, a, held, u, hheld, hhanded⟩
    rw [deliver_of_handOver_some hstage hheld hhanded]
    exact ⟨h.namable, by simp, by simp, h.lost, h.survivable, by simp⟩
  · rw [deliver_of_ne_holding (by simpa using hholding)]
    exact h

theorem healthy_drain (h : l.Healthy) (hsound : l.Sound target) (fuel : Nat) :
    (l.drain fuel).Healthy := by
  induction fuel generalizing l with
  | zero => exact h
  | succ fuel ih =>
      have htake := sound_take hsound
      exact ih (healthy_deliver (healthy_take h hsound) htake) (sound_deliver htake)

/-! ## Healthy shutdowns -/

/-- A healthy engine that is being closed has a worker. -/
theorem working_close (h : l.Healthy) (hopen : ∀ t, l.stage ≠ .closed t) :
    ∃ t, l.close.stage = .looking t ∨ l.close.stage = .holding t := by
  cases hstage : l.stage with
  | idle t | looking t => exact ⟨t, Or.inl (by rw [close, hstage])⟩
  | holding t => exact ⟨t, Or.inr (by rw [close, hstage])⟩
  | dead => exact absurd hstage h.alive
  | failed => exact absurd hstage h.started
  | closed t => exact absurd hstage (hopen t)

theorem healthy_close (h : l.Healthy) (hopen : ∀ t, l.stage ≠ .closed t) : l.close.Healthy := by
  rcases working_close h hopen with ⟨t, hstage⟩
  refine ⟨h.namable, ?_, ?_, h.lost, h.survivable, ?_⟩
  · rcases hstage with hstage | hstage <;> simp [hstage]
  · rcases hstage with hstage | hstage <;> simp [hstage]
  · rcases hstage with hstage | hstage <;> simp [hstage]

/-- A healthy worker that was told not to go on and delivered what it held looks for
events. -/
theorem looking_of_healthy (h : l.Healthy) (hsound : l.Sound target)
    (hopen : ∀ t, l.stage ≠ .closed t) : ∃ t, l.close.deliver.stage = .looking t := by
  rcases working_close h hopen with ⟨t, hlooking | hholding⟩
  · exact ⟨t, by rw [deliver_of_ne_holding (by simp [hlooking]), hlooking]⟩
  · obtain ⟨i, a, held, u, hheld, hhanded⟩ :=
      delivers_of_healthy (healthy_close h hopen) (sound_close hsound) hholding
    exact ⟨u, by rw [deliver_of_handOver_some hholding hheld hhanded]⟩

/-- The last work of a healthy worker ends in order; if it drains, nothing is queued then. -/
theorem healthy_windDown (h : l.Healthy) (hsound : l.Sound target)
    (hopen : ∀ t, l.stage ≠ .closed t) :
    l.windDown.Healthy ∧ (∃ t, l.windDown.stage = .looking t) ∧
      (l.config.drainOnShutdown = true → l.windDown.queued = []) := by
  have hclose := sound_close hsound
  have hdeliver := sound_deliver hclose
  have hhealthy : l.close.deliver.Healthy := healthy_deliver (healthy_close h hopen) hclose
  rcases looking_of_healthy h hsound hopen with ⟨t, hlooking⟩
  unfold windDown
  split
  next hdrains =>
    have hcapacity : l.close.deliver.capacity = l.capacity := (afterWork_deliver l.close).capacity
    have hfuel : l.close.deliver.queued.length ≤ l.capacity := by
      have hplaces := hdeliver.places
      omega
    have hdrained := healthy_drain hhealthy hdeliver l.capacity
    rcases stage_drain hlooking hfuel with hdead | ⟨hstage, hqueued⟩
    · exact absurd hdead hdrained.alive
    · exact ⟨hdrained, hstage, fun _ => hqueued⟩
  next hdrains => exact ⟨hhealthy, ⟨t, hlooking⟩, fun hdrain => absurd hdrain hdrains⟩

/-- What a healthy engine is shut down with: what it has to deliver is delivered, and the
rest is discarded. -/
theorem counts_shutdown (h : l.Healthy) (hsound : l.Sound target)
    (hopen : ∀ t, l.stage ≠ .closed t) :
    l.shutdown.delivered.length + l.shutdown.discarded.length = l.accepted.length ∧
      l.shutdown.delivered.length =
        if l.config.drainOnShutdown then l.accepted.length
        else l.delivered.length + l.held.length := by
  rcases healthy_windDown h hsound hopen with ⟨hwind, ⟨t, hlooking⟩, hqueued⟩
  have hsoundWind := sound_windDown hsound
  have hafter := afterWork_windDown l
  have hfits := hsoundWind.fits
  simp only [Fits, hlooking] at hfits
  have haccepted : l.windDown.accepted = l.accepted := hafter.accepted
  have hflow := congrArg List.length hsoundWind.flow
  rw [haccepted, hfits.1, hfits.2] at hflow
  simp only [List.map_nil, List.nil_append, List.length_append, List.length_map] at hflow
  have hdelivered : l.shutdown.delivered = l.windDown.delivered := by
    rw [shutdown_of_ne_closed hopen]
    rfl
  have hdiscarded : l.shutdown.discarded = l.windDown.queued.map Prod.snd := by
    rw [shutdown_of_ne_closed hopen, conclude, Inventory.discardAll]
    simp [hfits.2]
  rw [hdelivered, hdiscarded, List.length_map]
  refine ⟨hflow.symm, ?_⟩
  split
  next hdrains =>
    rw [hqueued hdrains] at hflow
    simpa using hflow.symm
  next hkeeps =>
    have hsame : l.windDown.queued = l.queued := by
      rw [windDown, if_neg hkeeps, queued_deliver]
      rfl
    have hbefore := congrArg List.length hsound.flow
    rw [hsound.discarded_of_open hopen] at hbefore
    simp only [List.nil_append, List.length_append, List.length_map] at hbefore
    rw [hsame] at hflow
    omega

theorem healthy_shutdown (h : l.Healthy) (hsound : l.Sound target) : l.shutdown.Healthy := by
  by_cases hclosed : ∃ t, l.stage = .closed t
  · rcases hclosed with ⟨t, ht⟩
    rw [shutdown, ht]
    exact h
  · have hopen : ∀ t, l.stage ≠ .closed t := by simpa using hclosed
    rcases healthy_windDown h hsound hopen with ⟨hwind, ⟨t, hlooking⟩, hqueued⟩
    have hfits := (sound_windDown hsound).fits
    simp only [Fits, hlooking] at hfits
    rw [shutdown_of_ne_closed hopen]
    refine ⟨hwind.namable, by simp [conclude], by simp [conclude], hwind.lost, hwind.survivable, ?_⟩
    intro u hu
    refine ⟨hfits.1, ?_⟩
    intro hdrains
    have hconfig : l.windDown.config = l.config := (afterWork_windDown l).config
    have hnone : l.windDown.queued = [] := hqueued (hconfig ▸ hdrains)
    simp [conclude, Inventory.discardAll, hnone, hfits.2]

/-- A healthy ledger accepts events until it is closed. -/
theorem Healthy.accepting_iff (h : l.Healthy) (hgated : l.IsGated) :
    l.accepting = true ↔ ∀ t, l.stage ≠ .closed t := by
  have hstarted := h.started
  rw [hgated]
  cases hstage : l.stage with
  | failed => exact absurd hstage hstarted
  | idle t | looking t | holding t | dead | closed t => simp [Stage.isOpen]

/-! ## Healthy runs -/

theorem healthy_step (h : l.Healthy) (hsound : l.Sound target) {action : Engine.Action α}
    (hsmooth : action.IsSmooth δ) : (l.step action).Healthy := by
  have hstart : (l.start none).Healthy := by
    unfold start
    split
    · rw [if_neg h.namable]
      exact ⟨h.namable, by simp, by simp, h.lost, h.survivable, by simp⟩
    · exact h
  cases action with
  | start fault =>
      have hfault : fault = none := hsmooth
      rw [hfault]
      exact hstart
  | enqueue fault a =>
      rcases hsmooth with ⟨rfl, hsurvives⟩
      simp only [step, enqueue]
      split
      · exact ⟨hstart.namable, hstart.alive, hstart.started, hstart.lost, hstart.survivable,
          hstart.settled⟩
      · refine ⟨hstart.namable, hstart.alive, hstart.started, hstart.lost, ?_, ?_⟩
        · rcases Inventory.offer_cases (l.start none).toInventory a with
            ⟨hoffer, -⟩ | ⟨-, haccepted, -⟩
          · rw [hoffer]
            exact hstart.survivable
          · rw [haccepted]
            intro b hb
            rcases List.mem_append.1 hb with hb | hb
            · exact hstart.survivable b hb
            · rw [List.mem_singleton.1 hb]
              exact hsurvives
        · intro t ht
          rw [Inventory.held_offer, Inventory.discarded_offer]
          exact hstart.settled t ht
  | take => exact healthy_take h hsound
  | deliver => exact healthy_deliver h hsound
  | shutdown => exact healthy_shutdown h hsound
  | takeTarget =>
      simp only [step, takeTarget]
      split
      next t hstage =>
        refine ⟨h.namable, by simp, by simp, h.lost, h.survivable, ?_⟩
        intro u hu
        exact h.settled _ hstage
      next => exact h

/-- No worker of a smooth run dies, and none is missing. -/
theorem healthy_run {config : Config} (target : δ) {actions : List (Engine.Action α)}
    (hname : Config.zero ∉ config.workerName.toList)
    (hsmooth : ∀ action ∈ actions, action.IsSmooth δ) :
    ((Ledger.new config target).run actions).Healthy := by
  have hnew : (Ledger.new config target : Ledger α δ).Healthy :=
    ⟨hname, by simp [new], by simp [new], rfl, by simp [new, Inventory.new], by simp [new]⟩
  have hrun : ∀ (l : Ledger α δ), l.Healthy → l.Sound target → l.IsGated →
      (l.run actions).Healthy := by
    induction actions with
    | nil =>
        intro l h _ _
        exact h
    | cons action actions ih =>
        intro l h hsound hgated
        have hrest : ∀ a ∈ actions, a.IsSmooth δ := by
          intro a ha
          exact hsmooth a (List.mem_cons_of_mem action ha)
        apply ih hrest
        · exact healthy_step h hsound (hsmooth action List.mem_cons_self)
        · exact sound_step hsound hgated action
        · exact isGated_step hgated action
  exact hrun _ hnew (sound_new config target) rfl

end Ledger

/-! ## Engines as buffers -/

namespace Engine

variable [Payload α] {e : Engine α δ} {l : Ledger α δ} {target : δ}

omit [Payload α] in
/-- A configuration that passes its check can be made an engine of. -/
theorem new_of_validate {config : Config} (h : config.validate = .ok ()) (target : δ) :
    Config.zero ∉ config.workerName.toList ∧
      ∃ e : Engine α δ, Engine.new config target = .ok e := by
  unfold Config.validate at h
  split at h
  · cases h
  next hcapacity =>
    split at h
    · cases h
    next hname =>
      refine ⟨hname, ?_⟩
      have hfits : config.poolCapacity ≤ maxPoolCapacity := by simpa using hcapacity
      obtain ⟨pool, hpool⟩ : ∃ p, Pool.new Shared.poolNumber config.poolCapacity = .ok p :=
        Pool.new_eq_ok_iff.2 hfits
      simp [Engine.new, Shared.new, hpool]

variable [Target α δ]

/-- A healthy worker holds what its ledger holds. -/
theorem inHand_eq (h : e.Matches l) (hhealthy : l.Healthy)
    (hopen : ∀ t, l.stage ≠ .closed t) : e.inHand = l.held.length := by
  have hstage := h.stage
  have halive := hhealthy.alive
  have hstarted := hhealthy.started
  rw [hstage.stage_eq] at halive hstarted hopen
  rw [inHand]
  cases hlifecycle : e.lifecycle with
  | idle t =>
      rw [hlifecycle] at hstage
      simp [hstage.2]
  | running worker =>
      rw [hlifecycle] at hstage halive
      cases worker with
      | polling line t => simp [hstage.2]
      | holding index line t =>
          rcases hstage.2 with ⟨a, hheld, -⟩
          simp [hheld]
      | finished t => exact hstage.elim
      | died index => exact absurd rfl halive
  | failed =>
      rw [hlifecycle] at hstarted
      exact absurd rfl hstarted
  | stopped t =>
      rw [hlifecycle] at hopen
      exact absurd rfl (hopen t)

/-- Offering an event to a healthy engine is offering it to its inventory. -/
theorem stats_enqueue (h : e.Matches l) (hhealthy : l.Healthy) (a : α) :
    (e.enqueue none a).2.stats = (l.toInventory.offer a).stats := by
  have hnamable : ¬ l.isUnnamable = true := by
    unfold Ledger.isUnnamable
    split
    · simpa using hhealthy.namable
    · simp
  have hstart : (l.start none).toInventory = l.toInventory := by
    unfold Ledger.start
    split
    · rw [if_neg hhealthy.namable]
    · rfl
  rw [(matches_enqueue h none a).stats_eq, Ledger.enqueue, if_neg hnamable]
  simp only [hstart]

/-- A healthy engine that is not shut down holds every accepted event that is not delivered, and
one record for each. -/
theorem unreleased_eq (h : e.Matches l) (hsound : l.Sound target)
    (hopen : ∀ t, l.stage ≠ .closed t) :
    e.stats.written ≤ l.accepted.length ∧
      e.availableSlots + (l.accepted.length - e.stats.written) = l.capacity := by
  have hwritten : e.stats.written = l.delivered.length := by
    rw [h.stats_eq]
    rfl
  have hflow := congrArg List.length hsound.flow
  rw [hsound.discarded_of_open hopen] at hflow
  simp only [List.nil_append, List.length_append, List.length_map] at hflow
  have hplaces := hsound.places
  rw [h.availableSlots_eq]
  omega

/-- The next event is accepted exactly if there is a free place and no shutdown was before it. -/
theorem stats_enqueue_eq (h : e.Matches l) (hhealthy : l.Healthy) (hsound : l.Sound target)
    (hgated : l.IsGated) (a : α) :
    ((∀ t, l.stage ≠ .closed t) → l.accepted.length - e.stats.written < l.capacity →
      (e.enqueue none a).2.stats = { e.stats with enqueued := e.stats.enqueued + 1 }) ∧
    ((∃ t, l.stage = .closed t) ∨ l.capacity ≤ l.accepted.length - e.stats.written →
      (e.enqueue none a).2.stats = { e.stats with dropped := e.stats.dropped + 1 }) := by
  rw [stats_enqueue h hhealthy]
  constructor
  · intro hopen hplace
    rcases unreleased_eq h hsound hopen with ⟨-, hslots⟩
    have hfree : l.free ≠ [] := by
      rw [← List.length_pos_iff, ← h.availableSlots_eq]
      omega
    rw [h.stats_eq]
    exact Inventory.stats_offer_of_open ⟨(hhealthy.accepting_iff hgated).2 hopen, hfree⟩ a
  · intro hfull
    have hrefused : ¬ (l.accepting = true ∧ l.free ≠ []) := by
      rintro ⟨haccepting, hfree⟩
      have hopen := (hhealthy.accepting_iff hgated).1 haccepting
      rcases unreleased_eq h hsound hopen with ⟨-, hslots⟩
      rw [← List.length_pos_iff, ← h.availableSlots_eq] at hfree
      rcases hfull with ⟨t, ht⟩ | hfull
      · exact hopen t ht
      · omega
    rw [h.stats_eq]
    exact Inventory.stats_offer_of_not_open hrefused a

/-- A shutdown of a healthy engine delivers what it has to and drops the rest. -/
theorem stats_shutdown (h : e.Matches l) (hhealthy : l.Healthy) (hsound : l.Sound target)
    (hopen : ∀ t, l.stage ≠ .closed t) :
    e.shutdown.stats =
      { enqueued := l.accepted.length
        written := e.writtenByShutdown l.accepted.length
        dropped := e.stats.dropped +
          (l.accepted.length - e.writtenByShutdown l.accepted.length) } := by
  have hwritten : e.stats.written = l.delivered.length := by
    rw [h.stats_eq]
    rfl
  have hdropped : e.stats.dropped = l.refused.length := by
    rw [h.stats_eq, Inventory.stats, hsound.discarded_of_open hopen]
    rfl
  rcases Ledger.counts_shutdown hhealthy hsound hopen with ⟨hcount, hdelivered⟩
  have hoffers := Ledger.offers_step l .shutdown (by simp)
  have haccepted : l.shutdown.accepted = l.accepted := hoffers.1
  have hrefused : l.shutdown.refused = l.refused := hoffers.2
  have hwill : e.writtenByShutdown l.accepted.length = l.shutdown.delivered.length := by
    rw [writtenByShutdown, inHand_eq h hhealthy hopen, hwritten, h.config, hdelivered]
  rw [hwill, hdropped, (matches_shutdown h).stats_eq]
  simp only [Inventory.stats, Stats.mk.injEq, haccepted, hrefused]
  refine ⟨?_, trivial, trivial⟩
  omega

/-- A healthy ledger makes its engine a bounded buffer. -/
theorem isBuffer_of_matches {config : Config} {actions : List (Action α)} (h : e.Matches l)
    (hhealthy : l.Healthy) (hsound : l.Sound target) (hgated : l.IsGated)
    (hclosed : (∃ t, l.stage = .closed t) ↔ .shutdown ∈ actions) (hconfig : l.config = config)
    (hcapacity : l.capacity = config.poolCapacity) :
    e.IsBuffer config target actions l.accepted l.returned := by
  have hstats : e.stats = l.stats := h.stats_eq
  have hwritten : e.stats.written = l.delivered.length := by
    rw [hstats]
    rfl
  have hopen_iff : .shutdown ∉ actions ↔ ∀ t, l.stage ≠ .closed t := by
    rw [← hclosed]
    simp
  exact {
    enqueued := by
      rw [hstats]
      rfl
    written_le := by
      rw [hwritten, hsound.flow, List.length_append]
      omega
    received := by
      rcases hsound.one_target with ⟨t, hhanded, hone⟩
      have htake : l.accepted.take e.stats.written = l.delivered := by
        rw [hwritten, hsound.flow, List.take_left]
      refine ⟨t, htake ▸ hhanded, ?_⟩
      rw [hhealthy.lost] at hone
      rw [h.target?_eq]
      simpa using hone
    accepting_iff := by
      rw [isAccepting, h.shared.accepting, hopen_iff]
      exact hhealthy.accepting_iff hgated
    slots := by
      intro hnot
      exact (unreleased_eq h hsound (hopen_iff.1 hnot)).2.trans hcapacity
    accepts := by
      intro hnot hplace a
      rw [← hcapacity] at hplace
      exact (stats_enqueue_eq h hhealthy hsound hgated a).1 (hopen_iff.1 hnot) hplace
    drops := by
      intro hfull a
      rw [← hclosed, ← hcapacity] at hfull
      exact (stats_enqueue_eq h hhealthy hsound hgated a).2 hfull
    shutdown_stats := by
      intro hnot
      exact stats_shutdown h hhealthy hsound (hopen_iff.1 hnot)
    settled := by
      intro hshut
      rcases hclosed.2 hshut with ⟨t, hstage⟩
      rcases hhealthy.settled t hstage with ⟨hheld, hdiscarded⟩
      have hfits := hsound.fits
      have hplaces := hsound.places
      have hflow := congrArg List.length hsound.flow
      simp only [Ledger.Fits, hstage] at hfits
      simp only [List.length_append, List.length_map] at hflow
      rw [hheld, hfits.1, List.length_nil] at hplaces hflow
      constructor
      · rw [h.availableSlots_eq]
        omega
      · intro hdrains
        rw [hdiscarded (hconfig ▸ hdrains), List.length_nil] at hflow
        omega }

/-- Where threads can be made and no event fails, an engine is a bounded buffer after any run:
it accepts events while a place is free and it is not shut down, and its target is handed the
accepted events in order, each with its own line. -/
theorem isBuffer_run (config : Config) (target : δ) (actions : List (Action α))
    (hvalid : config.validate = .ok ()) (hsmooth : ∀ action ∈ actions, action.IsSmooth δ) :
    ∃ e : Engine α δ, Engine.new config target = .ok e ∧
      (e.run actions).IsBuffer config target actions (e.acceptedIn actions)
        (e.takenIn actions) := by
  rcases new_of_validate (α := α) hvalid target with ⟨hname, e, hnew⟩
  refine ⟨e, hnew, ?_⟩
  have hmatches := matches_run (matches_new hnew) actions
  have hclosed := Ledger.closed_run (Ledger.new config target) actions
  have hsettings := Ledger.settings_run config target actions
  rw [← accepted_run hnew actions, ← taken_run hnew actions]
  refine isBuffer_of_matches hmatches (Ledger.healthy_run target hname hsmooth)
    (Ledger.sound_run config target actions) (Ledger.isGated_run config target actions) ?_
    hsettings.1 hsettings.2
  simpa [Ledger.new] using hclosed

/-- Two kinds of events go through one record, and the second of them finds no place at
first. -/
def twoKinds : List (Action Rehearsal.Item) :=
  [.enqueue none (.event (.generic {})), .enqueue none (.marked "lost".toList), .take, .deliver,
    .enqueue none (.marked "kept".toList), .shutdown, .takeTarget]

theorem isBuffer_run_twoKinds :
    ∃ e : Engine Rehearsal.Item Rehearsal.Recorder,
      Engine.new { poolCapacity := 1 } ⟨⟨.memory .memory, .json⟩, []⟩ = .ok e ∧
        (e.run twoKinds).IsBuffer { poolCapacity := 1 } ⟨⟨.memory .memory, .json⟩, []⟩ twoKinds
          (e.acceptedIn twoKinds) (e.takenIn twoKinds) := by
  apply isBuffer_run _ _ _ (by rfl)
  intro action haction
  simp only [twoKinds, List.mem_cons, List.not_mem_nil, or_false] at haction
  rcases haction with rfl | rfl | rfl | rfl | rfl | rfl | rfl
  · exact ⟨rfl, fun _ => rfl⟩
  · exact ⟨rfl, fun _ => rfl⟩
  · trivial
  · trivial
  · exact ⟨rfl, fun _ => rfl⟩
  · trivial
  · trivial

end Engine

end EventLog
