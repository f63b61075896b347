import EventLog.Proofs.Engine.Places

/-!
# Custody of payloads

An engine has a payload from the call that it was passed to until the payload is
destroyed.  Payloads are destroyed in four places: by a call that does not accept them,
after their delivery, when they are discarded at shutdown, and, if a worker did not survive
them, when the engine is given up.  None of the four knows of the others; that each payload
takes one of these ways, and only once, is a balance of the whole run.

Which payloads went which way is read off the steps of the run.  The ones that a step can
deliver are before the worker in their order: the one in its hand, then the queued ones.

Main results:

- `Ledger.delivered_step` and `Ledger.discarded_shutdown`: deliveries take from the front of
  what is before the worker, and a shutdown discards from its back.
- `Ledger.fatal_step`: an event that is lost is one that could not be handed over.
- `Engine.destroyed_step`: what one step destroys.
- `Engine.custody_run`: every payload of a run is destroyed once or alive in its record, and
  destroyed once when the engine is given up.
-/

namespace EventLog

variable {α δ : Type}

/-! ## Ledgers -/

namespace Ledger

variable {l : Ledger α δ}

/-- The events before the worker: the one in its hand, then the queued ones. -/
def pending (l : Ledger α δ) : List α :=
  (l.inHand ++ l.queued).map Prod.snd

/-- The events that were not accepted by the call that they were passed to. -/
def rejected (l : Ledger α δ) : List α :=
  l.refused ++ l.unreturned

theorem delivered_start (l : Ledger α δ) (fault : Option IoFault) :
    (l.start fault).delivered = l.delivered := by
  rw [toInventory_start]

theorem delivered_enqueue (l : Ledger α δ) (fault : Option IoFault) (a : α) :
    (l.enqueue fault a).delivered = l.delivered := by
  unfold enqueue
  split
  · exact delivered_start l fault
  · exact (Inventory.delivered_offer _ a).trans (delivered_start l fault)

theorem delivered_takeTarget (l : Ledger α δ) : l.takeTarget.delivered = l.delivered := by
  unfold takeTarget
  split <;> rfl

/-- An offered event is accepted or rejected, and nothing else is. -/
theorem rejected_enqueue (l : Ledger α δ) (fault : Option IoFault) (a : α) :
    ((l.enqueue fault a).accepted = l.accepted ++ [a] ∧
        (l.enqueue fault a).rejected = l.rejected) ∨
      ((l.enqueue fault a).accepted = l.accepted ∧
        (l.enqueue fault a).rejected.Perm (l.rejected ++ [a])) := by
  simp only [rejected]
  rcases enqueue_cases l fault a with ⟨-, haccepted, hrefused, hunreturned⟩ |
    ⟨-, haccepted, hrefused, hunreturned⟩ | ⟨-, haccepted, hrefused, hunreturned⟩
  · refine Or.inr ⟨haccepted, ?_⟩
    rw [hrefused, hunreturned, List.append_assoc]
  · refine Or.inl ⟨haccepted, ?_⟩
    rw [hrefused, hunreturned]
  · refine Or.inr ⟨haccepted, ?_⟩
    rw [hrefused, hunreturned, List.append_assoc, List.append_assoc]
    exact (List.perm_append_comm).append_left _

section Working

variable [Payload α]

theorem delivered_take (l : Ledger α δ) : l.take.delivered = l.delivered := by
  unfold take
  split
  · split <;> rfl
  · rfl

variable [Target α δ] {target : δ}

/-- Only an offer accepts or rejects an event. -/
theorem rejected_step (l : Ledger α δ) (action : Engine.Action α)
    (hother : ∀ fault a, action ≠ .enqueue fault a) : (l.step action).rejected = l.rejected := by
  rw [rejected, (offers_step l action hother).2, unreturned_step l action hother, rejected]

/-! ### What is delivered and what is discarded -/

/-- A delivery does nothing, or it loses the event in the worker's hand, or it hands it over. -/
theorem deliver_cases (h : l.Sound target) :
    ((∀ t, l.stage ≠ .holding t) ∧ l.deliver = l) ∨
      ∃ t i a, l.stage = .holding t ∧ l.held = [(i, a)] ∧
        ((handOver a t = none ∧ l.deliver = { l with stage := .dead, lost := some t }) ∨
          ∃ u, handOver a t = some u ∧
            l.deliver = { l with
              free := i :: l.free, held := [], delivered := l.delivered ++ [a]
              stage := .looking u }) := by
  by_cases hholding : ∃ t, l.stage = .holding t
  · rcases hholding with ⟨t, hstage⟩
    have hfits := h.fits
    simp only [Fits, hstage] at hfits
    obtain ⟨⟨i, a⟩, hheld⟩ := List.length_eq_one_iff.1 hfits.1
    refine Or.inr ⟨t, i, a, hstage, hheld, ?_⟩
    cases hhanded : handOver a t with
    | none => exact Or.inl ⟨rfl, deliver_of_handOver_none hstage hheld hhanded⟩
    | some u => exact Or.inr ⟨u, rfl, deliver_of_handOver_some hstage hheld hhanded⟩
  · have hne : ∀ t, l.stage ≠ .holding t := by simpa using hholding
    exact Or.inl ⟨hne, deliver_of_ne_holding hne⟩

/-- Nothing is lost while a worker can still go on. -/
theorem casualties_of_at_work (h : l.Sound target) (hopen : ∀ t, l.stage ≠ .closed t)
    (hdead : l.stage ≠ .dead) : l.casualties = [] := by
  have hfits := h.fits
  cases hstage : l.stage with
  | closed t => exact absurd hstage (hopen t)
  | dead => exact absurd hstage hdead
  | idle t | looking t | holding t | failed => simp_all [Fits, casualties]

theorem prefix_deliver (l : Ledger α δ) : l.delivered <+: l.deliver.delivered := by
  unfold deliver
  split
  · split
    · exact List.prefix_refl _
    · exact List.prefix_append _ _
  · exact List.prefix_refl _

theorem prefix_drain (fuel : Nat) (l : Ledger α δ) :
    l.delivered <+: (l.drain fuel).delivered := by
  induction fuel generalizing l with
  | zero => exact List.prefix_refl _
  | succ fuel ih =>
      have hround : l.delivered <+: l.take.deliver.delivered := by
        rw [← delivered_take l]
        exact prefix_deliver l.take
      exact hround.trans (ih _)

theorem prefix_windDown (l : Ledger α δ) : l.delivered <+: l.windDown.delivered := by
  have hclose : l.delivered <+: l.close.deliver.delivered := prefix_deliver l.close
  unfold windDown
  split
  · exact hclose.trans (prefix_drain _ _)
  · exact hclose

/-- The last work delivers from the front of what is before the worker, and the rest of the
queue is the back of it. -/
theorem pending_split (h : l.Sound target) (hopen : ∀ t, l.stage ≠ .closed t) :
    ∃ front middle, l.windDown.delivered = l.delivered ++ front ∧
      l.pending = front ++ (middle ++ l.windDown.queued.map Prod.snd) := by
  rcases prefix_windDown l with ⟨front, hfront⟩
  by_cases hdead : l.stage = .dead
  · refine ⟨[], [], ?_, ?_⟩
    · simp [windDown_of_dead hdead, close]
    · simp [windDown_of_dead hdead, close, pending, inHand, hdead]
  · have hflow := h.flow
    have hrest := (sound_windDown h).flow
    have hdiscarded : l.discarded = [] := h.discarded_of_open hopen
    have hnone : l.windDown.discarded = [] :=
      (afterWork_windDown l).discarded.trans hdiscarded
    have haccepted : l.windDown.accepted = l.accepted := (afterWork_windDown l).accepted
    have hheld : l.held = l.inHand := by
      rw [held_eq, casualties_of_at_work h hopen hdead, List.append_nil]
    refine ⟨front, l.windDown.held.map Prod.snd, hfront.symm, ?_⟩
    rw [haccepted, hflow, ← hfront, hdiscarded, hnone, hheld] at hrest
    simpa [pending] using hrest

/-- A shutdown does nothing, or it does the last work and discards the rest. -/
theorem shutdown_cases (l : Ledger α δ) :
    l.shutdown = l ∨ (∀ t, l.stage ≠ .closed t) ∧ l.shutdown = l.windDown.conclude := by
  by_cases hclosed : ∃ t, l.stage = .closed t
  · rcases hclosed with ⟨t, hstage⟩
    exact Or.inl (by rw [shutdown, hstage])
  · have hopen : ∀ t, l.stage ≠ .closed t := by simpa using hclosed
    exact Or.inr ⟨hopen, shutdown_of_ne_closed hopen⟩

/-- A step delivers from the front of what is before the worker. -/
theorem delivered_step (h : l.Sound target) (action : Engine.Action α) :
    ∃ front back, (l.step action).delivered = l.delivered ++ front ∧
      l.pending = front ++ back := by
  have hnone : (l.step action).delivered = l.delivered →
      ∃ front back, (l.step action).delivered = l.delivered ++ front ∧
        l.pending = front ++ back := by
    intro hsame
    exact ⟨[], l.pending, by simp [hsame], rfl⟩
  cases action with
  | start fault => exact hnone (delivered_start l fault)
  | enqueue fault a => exact hnone (delivered_enqueue l fault a)
  | take => exact hnone (delivered_take l)
  | takeTarget => exact hnone (delivered_takeTarget l)
  | deliver =>
      rcases deliver_cases h with ⟨-, hsame⟩ |
        ⟨t, i, a, hstage, hheld, ⟨-, hdead⟩ | ⟨u, -, hdone⟩⟩
      · exact hnone (by rw [step, hsame])
      · exact hnone (by rw [step, hdead])
      · refine ⟨[a], l.queued.map Prod.snd, by rw [step, hdone], ?_⟩
        simp [pending, inHand, hstage, hheld]
  | shutdown =>
      rcases shutdown_cases l with hsame | ⟨hopen, hshutdown⟩
      · exact hnone (by rw [step, hsame])
      · rcases pending_split h hopen with ⟨front, middle, hfront, hpending⟩
        refine ⟨front, middle ++ l.windDown.queued.map Prod.snd, ?_, hpending⟩
        rw [step, hshutdown]
        exact hfront

/-- A shutdown discards from the back of what is before the worker, and counts it. -/
theorem discarded_shutdown (h : l.Sound target) :
    ∃ front back, l.shutdown.discarded = l.discarded ++ back ∧ l.pending = front ++ back ∧
      l.shutdown.stats.dropped = l.stats.dropped + back.length := by
  rcases shutdown_cases l with hsame | ⟨hopen, hshutdown⟩
  · exact ⟨l.pending, [], by simp [hsame], by simp, by simp [hsame]⟩
  · have hafter := afterWork_windDown l
    rcases pending_split h hopen with ⟨front, middle, -, hpending⟩
    refine ⟨front ++ middle, l.windDown.queued.map Prod.snd, ?_, ?_, ?_⟩
    · rw [hshutdown]
      simp only [conclude, Inventory.discardAll, hafter.discarded, close]
    · rw [hpending, List.append_assoc]
    · rw [hshutdown]
      simp only [Inventory.stats, conclude, Inventory.discardAll, hafter.discarded,
        hafter.refused, close, List.length_append, List.length_map]
      omega

/-- Only a shutdown discards. -/
theorem discarded_step (l : Ledger α δ) (action : Engine.Action α) (hother : action ≠ .shutdown) :
    (l.step action).discarded = l.discarded := by
  cases action with
  | start fault => rw [step, toInventory_start]
  | enqueue fault a =>
      have hstart : (l.start fault).discarded = l.discarded := by rw [toInventory_start]
      simp only [step, enqueue]
      split
      · exact hstart
      · exact (Inventory.discarded_offer _ a).trans hstart
  | take => exact (afterWork_take l).discarded
  | deliver => exact (afterWork_deliver l).discarded
  | shutdown => exact absurd rfl hother
  | takeTarget =>
      simp only [step, takeTarget]
      split <;> rfl

/-! ### What is lost -/

/-- What the worker did not survive could not be handed over to the target as it was then. -/
def Fatal (l : Ledger α δ) (target : δ) : Prop :=
  ∀ p ∈ l.casualties, handOverAll (l.delivered ++ [p.2]) target = none

/-- Without a loss there is nothing to say. -/
theorem fatal_of_casualties_nil (h : l.casualties = []) : l.Fatal target := by
  intro p hp
  rw [h] at hp
  cases hp

theorem Fatal.congr {m : Ledger α δ} (h : l.Fatal target)
    (hcasualties : m.casualties = l.casualties) (hdelivered : m.delivered = l.delivered) :
    m.Fatal target := by
  unfold Fatal
  rw [hcasualties, hdelivered]
  exact h

/-- The event that is handed over next is lost if that does not return. -/
theorem fatal_of_handOver_none {m : Ledger α δ} {t : δ} {i : Nat} {a : α} (h : l.Sound target)
    (htarget : l.stage.target? = some t) (hhanded : handOver a t = none)
    (hcasualties : m.casualties = [(i, a)]) (hdelivered : m.delivered = l.delivered) :
    m.Fatal target := by
  intro p hp
  have hbefore : handOverAll l.delivered target = some t := (h.handed htarget).1
  rw [hcasualties, List.mem_singleton] at hp
  rw [hp, hdelivered, handOverAll_append, hbefore]
  simp [handOverAll, hhanded]

theorem fatal_take (h : l.Sound target) (hfatal : l.Fatal target) : l.take.Fatal target := by
  by_cases hlooking : ∃ t, l.stage = .looking t
  · rcases hlooking with ⟨t, hstage⟩
    have hfits := h.fits
    simp only [Fits, hstage] at hfits
    cases hqueued : l.queued with
    | nil =>
        rw [take_of_queued_nil hqueued]
        exact hfatal
    | cons p queued =>
        rcases p with ⟨i, a⟩
        cases hrender : Payload.render a with
        | none =>
            have hhanded : handOver a t = none := by simp [handOver, hrender]
            have htake := take_of_render_none hstage hqueued hrender
            refine fatal_of_handOver_none (i := i) h (by rw [hstage]; rfl) hhanded ?_ ?_
            · simp [htake, casualties, hfits.1]
            · rw [htake]
        | some line =>
            apply fatal_of_casualties_nil
            simp [take_of_render_some hstage hqueued hrender, casualties]
  · have hne : ∀ t, l.stage ≠ .looking t := by simpa using hlooking
    rw [take_of_ne_looking hne]
    exact hfatal

theorem fatal_deliver (h : l.Sound target) (hfatal : l.Fatal target) :
    l.deliver.Fatal target := by
  rcases deliver_cases h with ⟨-, hsame⟩ |
    ⟨t, i, a, hstage, hheld, ⟨hhanded, hdead⟩ | ⟨u, -, hdone⟩⟩
  · rw [hsame]
    exact hfatal
  · refine fatal_of_handOver_none (i := i) h (by rw [hstage]; rfl) hhanded ?_ ?_
    · simp [hdead, casualties, hheld]
    · rw [hdead]
  · apply fatal_of_casualties_nil
    simp [hdone, casualties]

/-- After a delivery the hand of the worker is empty. -/
theorem ne_holding_deliver (h : l.Sound target) (t : δ) : l.deliver.stage ≠ .holding t := by
  rcases deliver_cases h with ⟨hne, hsame⟩ | ⟨u, i, a, -, -, ⟨-, hdead⟩ | ⟨v, -, hdone⟩⟩
  · rw [hsame]
    exact hne t
  · simp [hdead]
  · simp [hdone]

theorem ne_holding_drain (fuel : Nat) (h : l.Sound target) (hne : ∀ t, l.stage ≠ .holding t) :
    ∀ t, (l.drain fuel).stage ≠ .holding t := by
  induction fuel generalizing l with
  | zero => exact hne
  | succ fuel ih => exact ih (sound_deliver (sound_take h)) (ne_holding_deliver (sound_take h))

/-- The last work leaves the hand of the worker empty. -/
theorem ne_holding_windDown (h : l.Sound target) : ∀ t, l.windDown.stage ≠ .holding t := by
  have hclose := sound_close h
  unfold windDown
  split
  · exact ne_holding_drain _ (sound_deliver hclose) (ne_holding_deliver hclose)
  · exact ne_holding_deliver hclose

theorem fatal_drain (fuel : Nat) (h : l.Sound target) (hfatal : l.Fatal target) :
    (l.drain fuel).Fatal target := by
  induction fuel generalizing l with
  | zero => exact hfatal
  | succ fuel ih =>
      have htake := sound_take h
      exact ih (sound_deliver htake) (fatal_deliver htake (fatal_take h hfatal))

theorem fatal_windDown (h : l.Sound target) (hfatal : l.Fatal target) :
    l.windDown.Fatal target := by
  have hclose := sound_close h
  have hdeliver := fatal_deliver hclose (hfatal.congr (casualties_close l) rfl)
  unfold windDown
  split
  · exact fatal_drain _ (sound_deliver hclose) hdeliver
  · exact hdeliver

/-- A step loses only what cannot be handed over. -/
theorem fatal_step (h : l.Sound target) (hfatal : l.Fatal target) (action : Engine.Action α) :
    (l.step action).Fatal target := by
  cases action with
  | start fault => exact hfatal.congr (casualties_start l fault) (delivered_start l fault)
  | enqueue fault a =>
      exact hfatal.congr (casualties_enqueue l fault a) (delivered_enqueue l fault a)
  | take => exact fatal_take h hfatal
  | deliver => exact fatal_deliver h hfatal
  | shutdown =>
      rcases shutdown_cases l with hsame | ⟨-, hshutdown⟩
      · rw [step, hsame]
        exact hfatal
      · rw [step, hshutdown]
        exact (fatal_windDown h hfatal).congr
          (casualties_of_ne_holding (ne_holding_windDown h)).symm rfl
  | takeTarget => exact hfatal.congr (casualties_takeTarget l) (delivered_takeTarget l)

theorem fatal_run (h : l.Sound target) (hgated : l.IsGated) (hfatal : l.Fatal target)
    (actions : List (Engine.Action α)) : (l.run actions).Fatal target := by
  induction actions generalizing l with
  | nil => exact hfatal
  | cons action actions ih =>
      exact ih (sound_step h hgated action) (isGated_step hgated action)
        (fatal_step h hfatal action)

end Working

end Ledger

/-! ## Payloads in records -/

namespace Shared

variable {s : Shared α} {b : Inventory α}

/-- Occupied records hold the events that the inventory has for them. -/
theorem payloads_of_occupied (h : s.Holds b) {ps : List (Nat × α)}
    (hps : ∀ p ∈ ps, p ∈ b.occupied) :
    (ps.map Prod.fst).filterMap s.slots.payload? = ps.map Prod.snd := by
  induction ps with
  | nil => rfl
  | cons p ps ih =>
      have hp : s.slots.payload? p.1 = some p.2 := (h.slots p.1 p.2).2 (hps p List.mem_cons_self)
      have hrest := ih fun q hq => hps q (List.mem_cons_of_mem _ hq)
      rw [List.map_cons, List.filterMap_cons_some hp, hrest, List.map_cons]

end Shared

theorem Slots.payloads_eq (s : Slots α) :
    s.payloads = (List.range s.size).filterMap s.payload? := by
  have hslots : s.held.toList = (List.range s.size).map s.payload? := by
    apply List.ext_getElem
    · simp [Slots.size]
    · intro i hi _
      have hlt : i < s.held.size := by simpa using hi
      simp [Slots.payload?, hlt]
  rw [Slots.payloads, hslots, List.filterMap_map]
  rfl

namespace Shared

variable {s : Shared α} {b : Inventory α}

/-- The payloads in all records are the events that the inventory has for them. -/
theorem payloads_of_holds (h : s.Holds b) :
    s.slots.payloads.Perm (b.occupied.map Prod.snd) := by
  have hfree : b.free.filterMap s.slots.payload? = [] := by
    rw [List.filterMap_eq_nil_iff]
    intro i hi
    by_contra hsome
    have hocc : s.slots.isOccupied i = true := by
      rw [Slots.isOccupied, Option.isSome_iff_ne_none]
      exact hsome
    exact not_mem_occupied_of_free h hi ((isOccupied_of_holds h).1 hocc)
  rw [Slots.payloads_eq, h.slots_size, ← payloads_of_occupied h fun p hp => hp]
  refine (h.places.filterMap s.slots.payload?).symm.trans ?_
  rw [List.filterMap_append, hfree, List.nil_append]

end Shared

/-! ## What becomes of payloads -/

namespace Engine

/-- The payload that an action passes to the engine. -/
def Action.passed : Action α → List α
  | .enqueue _ a => [a]
  | _ => []

/-- The payloads that actions pass to the engine, in order. -/
def passedIn (actions : List (Action α)) : List α := actions.flatMap Action.passed

/-- The payloads in some of the records. -/
def payloadsIn (e : Engine α δ) (records : List Nat) : List α :=
  records.filterMap e.shared.slots.payload?

/-- The payloads before the worker: the one in its hand, then the queued ones. -/
def waiting (e : Engine α δ) : List α := e.payloadsIn (e.handRecords ++ e.queuedRecords)

/-- The payloads that are in the queue, in the worker's hand or in a lost record. -/
def alive (e : Engine α δ) (lost : List Nat) : List α :=
  e.payloadsIn (e.queuedRecords ++ (e.handRecords ++ lost))

/-- The payload that an action passes to the engine and that is not accepted. -/
def rejectedAt (e : Engine α δ) : Action α → List α
  | .enqueue fault a =>
    if (e.enqueue fault a).2.stats.enqueued = e.stats.enqueued + 1 then [] else [a]
  | _ => []

section Reading

variable [Payload α] [Target α δ]

/-- The payloads that an action delivers: as many as it counts, from the front of those before
the worker. -/
def deliveredAt (e : Engine α δ) (action : Action α) : List α :=
  e.waiting.take ((e.step action).stats.written - e.stats.written)

/-- The payloads that an action discards: as many as a shutdown counts, from the back of those
before the worker. -/
def discardedAt (e : Engine α δ) : Action α → List α
  | .shutdown => e.waiting.drop (e.waiting.length - (e.shutdown.stats.dropped - e.stats.dropped))
  | _ => []

/-- The payloads that are delivered in a run. -/
def deliveredIn (e : Engine α δ) (actions : List (Action α)) : List α :=
  collect deliveredAt e actions

/-- The payloads that are discarded in a run. -/
def discardedIn (e : Engine α δ) (actions : List (Action α)) : List α :=
  collect discardedAt e actions

/-- The payloads that are passed to the engine in a run and are not accepted. -/
def rejectedIn (e : Engine α δ) (actions : List (Action α)) : List α :=
  collect rejectedAt e actions

/-- Each payload of a run is in one place, and is destroyed in one place. -/
structure Custody (e : Engine α δ) (target : δ) (actions : List (Action α)) : Prop where
  /-- Each payload that was passed in was destroyed, or is in the queue, in the worker's hand or in
  a lost record; only one of these, and only once. -/
  alive : (passedIn actions).Perm
    ((e.run actions).shared.destroyed ++ (e.run actions).alive (e.lostIn actions))
  /-- The destroyed payloads are the ones that were delivered, discarded, or not accepted. -/
  destroyed : (e.run actions).shared.destroyed.Perm
    (e.deliveredIn actions ++ (e.discardedIn actions ++ e.rejectedIn actions))
  /-- A payload is destroyed in the step that delivers it, discards it, or does not accept it. -/
  destroyed_next : ∀ action, ((e.run actions).step action).shared.destroyed.Perm
    ((e.run actions).shared.destroyed ++ ((e.run actions).deliveredAt action ++
      ((e.run actions).discardedAt action ++ (e.run actions).rejectedAt action)))
  /-- There is one target, and the delivered payloads were handed over to it. -/
  delivered : ∃ t, handOverAll (e.deliveredIn actions) target = some t ∧
    (e.run actions).target?.toList ++ ((e.run actions).lost.toList ++ e.takenIn actions) = [t]
  /-- What is in a lost record could not be rendered or delivered. -/
  lost : ∀ a ∈ (e.run actions).payloadsIn (e.lostIn actions),
    handOverAll (e.deliveredIn actions ++ [a]) target = none
  /-- Giving the engine up shuts it down and destroys what is in lost records then. -/
  dropped : (e.run actions).drop.shared.destroyed.Perm
    ((e.run (actions ++ [.shutdown])).payloadsIn (e.lostIn (actions ++ [.shutdown])) ++
      (e.run (actions ++ [.shutdown])).shared.destroyed)
  /-- Then each payload that was passed in is destroyed, once. -/
  all_destroyed : (e.run actions).drop.shared.destroyed.Perm (passedIn actions)

end Reading

/-! ### Reading the ledger -/

variable [Payload α] {e : Engine α δ} {l : Ledger α δ}

theorem payloadsIn_eq (h : e.Matches l) {ps : List (Nat × α)}
    (hps : ∀ p ∈ ps, p ∈ l.toInventory.occupied) :
    e.payloadsIn (ps.map Prod.fst) = ps.map Prod.snd :=
  Shared.payloads_of_occupied h.shared hps

/-- What is before the worker is what is before it in the ledger. -/
theorem waiting_eq (h : e.Matches l) : e.waiting = l.pending := by
  rw [waiting, handRecords_eq h, queuedRecords_eq h, ← List.map_append, payloadsIn_eq h]
  · rfl
  · intro p hp
    rw [Inventory.occupied, Ledger.held_eq]
    rcases List.mem_append.1 hp with hhand | hqueue
    · exact List.mem_append_right _ (List.mem_append_left _ hhand)
    · exact List.mem_append_left _ hqueue

/-- What a ledger holds without a worker is in its records. -/
theorem payloadsIn_casualties (h : e.Matches l) :
    e.payloadsIn (l.casualties.map Prod.fst) = l.casualties.map Prod.snd := by
  apply payloadsIn_eq h
  intro p hp
  rw [Inventory.occupied, Ledger.held_eq]
  exact List.mem_append_right _ (List.mem_append_right _ hp)

/-- What is alive is what the ledger has in its records. -/
theorem alive_eq (h : e.Matches l) :
    e.alive (l.casualties.map Prod.fst) = l.queued.map Prod.snd ++ l.held.map Prod.snd := by
  rw [alive, handRecords_eq h, queuedRecords_eq h, ← List.map_append, ← Ledger.held_eq,
    ← List.map_append]
  exact (payloadsIn_eq h fun p hp => hp).trans List.map_append

variable [Target α δ] {target : δ}

/-- The ledger lists what a step delivers. -/
theorem delivered_step (h : e.Matches l) (hsound : l.Sound target) (action : Action α) :
    (l.step action).delivered = l.delivered ++ e.deliveredAt action := by
  rcases Ledger.delivered_step hsound action with ⟨front, back, hfront, hpending⟩
  have hbefore : e.stats.written = l.delivered.length := by
    rw [h.stats_eq]
    rfl
  have hafter : (e.step action).stats.written = l.delivered.length + front.length := by
    rw [(matches_step h action).stats_eq, ← List.length_append, ← hfront]
    rfl
  rw [deliveredAt, hbefore, hafter, waiting_eq h, hpending, hfront]
  simp

/-- The ledger lists what a step discards. -/
theorem discarded_step (h : e.Matches l) (hsound : l.Sound target) (action : Action α) :
    (l.step action).discarded = l.discarded ++ e.discardedAt action := by
  cases action with
  | shutdown =>
      rcases Ledger.discarded_shutdown hsound with ⟨front, back, hback, hpending, hcount⟩
      have hbefore : e.stats.dropped = l.stats.dropped := by rw [h.stats_eq]
      have hafter : e.shutdown.stats.dropped = l.stats.dropped + back.length := by
        rw [(matches_shutdown h).stats_eq, hcount]
      rw [discardedAt, hbefore, hafter, waiting_eq h, hpending, Ledger.step, hback]
      simp
  | start fault | enqueue fault a | take | deliver | takeTarget =>
      refine (Ledger.discarded_step l _ ?_).trans (List.append_nil _).symm
      simp

/-- The ledger lists what a step rejects, and every payload that is passed in is accepted or
rejected. -/
theorem rejected_step (h : e.Matches l) (action : Action α) :
    (l.step action).rejected.Perm (l.rejected ++ e.rejectedAt action) ∧
      ((l.step action).accepted ++ (l.step action).rejected).Perm
        (l.accepted ++ l.rejected ++ action.passed) := by
  cases action with
  | enqueue fault a =>
      have hbefore : e.stats.enqueued = l.accepted.length := by
        rw [h.stats_eq]
        rfl
      have hafter : (e.enqueue fault a).2.stats.enqueued = (l.enqueue fault a).accepted.length := by
        rw [(matches_enqueue h fault a).stats_eq]
        rfl
      rw [rejectedAt, hbefore, hafter, Ledger.step]
      rcases Ledger.rejected_enqueue l fault a with ⟨haccepted, hrejected⟩ | ⟨haccepted, hrejected⟩
      · refine ⟨by simp [haccepted, hrejected], ?_⟩
        rw [haccepted, hrejected, List.append_assoc, List.append_assoc]
        exact List.perm_append_comm.append_left _
      · refine ⟨by simpa [haccepted] using hrejected, ?_⟩
        rw [haccepted, List.append_assoc]
        exact hrejected.append_left _
  | start fault | take | deliver | shutdown | takeTarget =>
      rw [Ledger.rejected_step l _ (by simp), (Ledger.offers_step l _ (by simp)).1]
      simp [rejectedAt, Action.passed]

/-- What one step destroys: the payloads that it delivers, discards or rejects. -/
theorem destroyed_step (h : e.Matches l) (hsound : l.Sound target) (action : Action α) :
    (e.step action).shared.destroyed.Perm (e.shared.destroyed ++
      (e.deliveredAt action ++ (e.discardedAt action ++ e.rejectedAt action))) := by
  classical
  have hafter := (matches_step h action).shared.destroyed
  have hbefore := h.shared.destroyed
  have hrejected := (rejected_step h action).1
  have hdelivered := delivered_step h hsound action
  have hdiscarded := discarded_step h hsound action
  rw [List.perm_iff_count] at *
  intro a
  have h1 := hafter a
  have h2 := hbefore a
  have h3 := hrejected a
  simp only [Inventory.destroyed, Ledger.rejected, hdelivered, hdiscarded, List.count_append] at *
  omega

/-- Every payload that was passed in is destroyed or alive. -/
theorem passed_alive (h : e.Matches l) (hsound : l.Sound target) :
    (l.accepted ++ l.rejected).Perm
      (e.shared.destroyed ++ e.alive (l.casualties.map Prod.fst)) := by
  classical
  have hdestroyed := h.shared.destroyed
  rw [alive_eq h, Ledger.rejected, hsound.flow]
  rw [List.perm_iff_count] at *
  intro a
  have hcount := hdestroyed a
  simp only [Inventory.destroyed, List.count_append] at *
  omega

/-- Once an engine is shut down its records hold what was lost, and nothing else is alive. -/
theorem destroyed_of_closed (h : e.Matches l) (hsound : l.Sound target)
    (hclosed : ∃ t, l.stage = .closed t) :
    e.destroyRest.shared.destroyed.Perm
        (e.payloadsIn (l.casualties.map Prod.fst) ++ e.shared.destroyed) ∧
      e.destroyRest.shared.destroyed.Perm (l.accepted ++ l.rejected) := by
  rcases hclosed with ⟨t, hstage⟩
  have hfits := hsound.fits
  simp only [Ledger.Fits, hstage] at hfits
  have hheld : l.casualties = l.held := Ledger.casualties_of_ne_holding (by simp [hstage])
  have hslots : e.shared.slots.payloads.Perm (l.held.map Prod.snd) := by
    have hpayloads := Shared.payloads_of_holds h.shared
    rwa [Inventory.occupied, hfits.1, List.nil_append] at hpayloads
  have hrest : e.destroyRest.shared.destroyed.Perm (l.held.map Prod.snd ++ e.shared.destroyed) :=
    hslots.append_right _
  refine ⟨?_, ?_⟩
  · rw [payloadsIn_casualties h, hheld]
    exact hrest
  · refine (hrest.trans List.perm_append_comm).trans ?_
    have halive := passed_alive h hsound
    rw [alive_eq h, hfits.1, List.map_nil, List.nil_append] at halive
    exact halive.symm

/-! ### Runs -/

theorem run_concat (e : Engine α δ) (actions : List (Action α)) (action : Action α) :
    e.run (actions ++ [action]) = (e.run actions).step action := by
  simp [run]

/-- What is passed in can be read off the actions alone. -/
theorem collect_passed (e : Engine α δ) (actions : List (Action α)) :
    collect (fun _ action => action.passed) e actions = passedIn actions := by
  induction actions generalizing e with
  | nil => rfl
  | cons action actions ih => simp [collect, passedIn, ih (e.step action)]

section Runs

variable {config : Config} (hnew : Engine.new config target = .ok e)
include hnew

theorem delivered_run (actions : List (Action α)) :
    ((Ledger.new config target).run actions).delivered = e.deliveredIn actions := by
  apply collect_eq_of_sound deliveredAt (fun l as => l.delivered = as) ?_ hnew rfl
  intro e l action as h hsound hkept
  rw [delivered_step h hsound, hkept]

theorem discarded_run (actions : List (Action α)) :
    ((Ledger.new config target).run actions).discarded = e.discardedIn actions := by
  apply collect_eq_of_sound discardedAt (fun l as => l.discarded = as) ?_ hnew rfl
  intro e l action as h hsound hkept
  rw [discarded_step h hsound, hkept]

theorem rejected_run (actions : List (Action α)) :
    ((Ledger.new config target).run actions).rejected.Perm (e.rejectedIn actions) := by
  apply collect_eq_of_sound rejectedAt (fun l as => l.rejected.Perm as) ?_ hnew (List.Perm.refl _)
  intro e l action as h hsound hkept
  exact (rejected_step h action).1.trans (hkept.append_right _)

theorem passed_run (actions : List (Action α)) :
    (((Ledger.new config target).run actions).accepted ++
      ((Ledger.new config target).run actions).rejected).Perm (passedIn actions) := by
  rw [← collect_passed e actions]
  apply collect_eq_of_sound (fun _ action => action.passed)
    (fun l as => (l.accepted ++ l.rejected).Perm as) ?_ hnew (List.Perm.refl _)
  intro e l action as h hsound hkept
  exact (rejected_step h action).2.trans (hkept.append_right _)

/-- Every payload of a run is destroyed once or alive in its record, and destroyed once when the
engine is given up. -/
theorem custody_run (actions : List (Action α)) : e.Custody target actions := by
  have hmatches := matches_run (matches_new hnew) actions
  have hsound := Ledger.sound_run config target actions
  have hfatal := Ledger.fatal_run (Ledger.sound_new config target) rfl
    (Ledger.fatal_of_casualties_nil rfl) actions
  have halive := passed_alive hmatches hsound
  rw [lost_run hnew] at halive
  -- the state in which the engine is given up
  have hclosing := matches_run (matches_new hnew) (actions ++ [.shutdown])
  have hend := Ledger.sound_run config target (actions ++ [.shutdown])
  have hclosed := (Ledger.closed_run (Ledger.new config target)
    (actions ++ [.shutdown])).2 (Or.inr (by simp))
  rcases destroyed_of_closed hclosing hend hclosed with ⟨hlost, hall⟩
  have hdrop : (e.run actions).drop = (e.run (actions ++ [.shutdown])).destroyRest := by
    rw [run_concat]
    rfl
  have hpassed : passedIn (actions ++ [.shutdown]) = passedIn actions := by
    simp [passedIn, Action.passed]
  rw [lost_run hnew] at hlost
  exact {
    alive := (passed_run hnew actions).symm.trans halive
    destroyed := by
      rw [← delivered_run hnew, ← discarded_run hnew]
      refine hmatches.shared.destroyed.trans ?_
      rw [Inventory.destroyed, List.append_assoc, List.append_assoc]
      exact ((rejected_run hnew actions).append_left _).append_left _
    destroyed_next := fun action => destroyed_step hmatches hsound action
    delivered := by
      rw [← delivered_run hnew, hmatches.target?_eq, hmatches.lost, ← taken_run hnew]
      exact hsound.one_target
    lost := by
      intro a ha
      rw [← lost_run hnew, payloadsIn_casualties hmatches] at ha
      rcases List.mem_map.1 ha with ⟨p, hp, rfl⟩
      rw [← delivered_run hnew]
      exact hfatal p hp
    dropped := by
      rw [hdrop]
      exact hlost
    all_destroyed := by
      rw [hdrop, ← hpassed]
      exact hall.trans (passed_run hnew _) }

end Runs

/-- The worker does not survive the delivery of the first of three events; the last of them finds
no free record. -/
def cutShort : List (Action Rehearsal.Item) :=
  [.enqueue none (.marked "!panic".toList), .enqueue none (.marked "waits".toList),
    .enqueue none (.marked "late".toList), .take, .deliver]

theorem custody_run_cutShort :
    ∃ e : Engine Rehearsal.Item Rehearsal.Recorder,
      Engine.new { poolCapacity := 2 } ⟨⟨.memory .memory, .text⟩, []⟩ = .ok e ∧
        e.rejectedIn cutShort = [.marked "late".toList] ∧ e.lostIn cutShort = [0] ∧
        (e.run cutShort).alive [0] = [.marked "waits".toList, .marked "!panic".toList] ∧
        e.Custody ⟨⟨.memory .memory, .text⟩, []⟩ cutShort := by
  have hnew : Engine.new (α := Rehearsal.Item) { poolCapacity := 2 }
      (⟨⟨.memory .memory, .text⟩, []⟩ : Rehearsal.Recorder) = .ok _ := rfl
  exact ⟨_, hnew, rfl, rfl, rfl, custody_run hnew cutShort⟩

end Engine

end EventLog
