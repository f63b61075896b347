import EventLog.Engine.Shared
import EventLog.Proofs.Transport.PoolStack
import EventLog.Proofs.Transport.QueueChain

/-!
# Inventories of an engine

An inventory lists the records of an engine by the place that they are in: on the free
stack, in the queue with their events, or taken out of the queue and not yet free again.
It also keeps the history of the events: which were accepted, delivered, refused and
discarded.  Links, words and slots do not occur in it.

Each operation on the shared state of an engine is given here as an operation on its
inventory.  A state that an inventory describes has broken no promise.

Main results:

- `Shared.holds_new`: the inventory of a new engine has all records free.
- `Shared.holds_offer_of_free` and `Shared.holds_refuse`: what becomes of an event that is
  offered.
- `Shared.holds_takeOldest`: the oldest event leaves the queue first.
- `Shared.holds_retire` and `Shared.holds_discard`: the two ways in which a record becomes
  free again.
- `Shared.holds_discardAll`: discarding the rest empties the queue.
-/

namespace EventLog

/-! ## Inventories -/

/-- The records of an engine by place, and the history of its events. -/
structure Inventory (α : Type) where
  capacity : Nat
  accepting : Bool := true
  /-- The free records, the next one to be used first. -/
  free : List Nat
  /-- The records in the queue with their events, the oldest first. -/
  queued : List (Nat × α) := []
  /-- The records that are neither free nor in the queue, with their events. -/
  held : List (Nat × α) := []
  accepted : List α := []
  delivered : List α := []
  /-- The events that were not accepted, in order. -/
  refused : List α := []
  /-- The events that were accepted and then discarded, in order. -/
  discarded : List α := []
  /-- The events of calls that did not return, in order. -/
  unreturned : List α := []

namespace Inventory

variable {α : Type}

/-- The inventory of a new engine. -/
def new (capacity : Nat) : Inventory α :=
  { capacity, free := List.range capacity }

/-- The records that are not free, with their events. -/
def occupied (b : Inventory α) : List (Nat × α) :=
  b.queued ++ b.held

/-- The counters that go with the history. -/
def stats (b : Inventory α) : Stats where
  dropped := b.refused.length + b.discarded.length
  enqueued := b.accepted.length
  written := b.delivered.length

/-- The events that were destroyed. -/
def destroyed (b : Inventory α) : List α :=
  b.delivered ++ b.discarded ++ b.refused ++ b.unreturned

/-- An event that is not accepted is destroyed. -/
def refuse (b : Inventory α) (a : α) : Inventory α :=
  { b with refused := b.refused ++ [a] }

/-- An offered event is put into the next free record and behind all others; without a
free record, or once no events are accepted, it is refused. -/
def offer (b : Inventory α) (a : α) : Inventory α :=
  match b.accepting, b.free with
  | true, i :: free =>
    { b with free, queued := b.queued ++ [(i, a)], accepted := b.accepted ++ [a] }
  | _, _ => b.refuse a

/-- The inventory after all queued events were discarded. -/
def discardAll (b : Inventory α) : Inventory α :=
  { b with
    free := (b.queued.map Prod.fst).reverse ++ b.free
    queued := []
    discarded := b.discarded ++ b.queued.map Prod.snd }

theorem capacity_offer (b : Inventory α) (a : α) : (b.offer a).capacity = b.capacity := by
  unfold Inventory.offer
  split <;> rfl

theorem accepting_offer (b : Inventory α) (a : α) : (b.offer a).accepting = b.accepting := by
  unfold Inventory.offer
  split <;> rfl

theorem held_offer (b : Inventory α) (a : α) : (b.offer a).held = b.held := by
  unfold Inventory.offer
  split <;> rfl

theorem discarded_offer (b : Inventory α) (a : α) : (b.offer a).discarded = b.discarded := by
  unfold Inventory.offer
  split <;> rfl

theorem unreturned_offer (b : Inventory α) (a : α) : (b.offer a).unreturned = b.unreturned := by
  unfold Inventory.offer
  split <;> rfl

theorem delivered_offer (b : Inventory α) (a : α) : (b.offer a).delivered = b.delivered := by
  unfold Inventory.offer
  split <;> rfl

/-- An offered event is accepted or refused, and nothing else is. -/
theorem offer_cases (b : Inventory α) (a : α) :
    b.offer a = b.refuse a ∧ ¬ (b.accepting = true ∧ b.free ≠ []) ∨
      (b.accepting = true ∧ b.free ≠ []) ∧ (b.offer a).accepted = b.accepted ++ [a] ∧
        (b.offer a).refused = b.refused := by
  unfold Inventory.offer
  split
  next i free haccepting hfree => exact Or.inr ⟨⟨haccepting, by simp [hfree]⟩, rfl, rfl⟩
  next hother =>
    refine Or.inl ⟨rfl, ?_⟩
    rintro ⟨haccepting, hfree⟩
    rcases List.exists_cons_of_ne_nil hfree with ⟨i, free, hcons⟩
    exact hother i free haccepting hcons

theorem stats_offer_of_open {b : Inventory α} (h : b.accepting = true ∧ b.free ≠ []) (a : α) :
    (b.offer a).stats = { b.stats with enqueued := b.stats.enqueued + 1 } := by
  rcases offer_cases b a with ⟨-, hnot⟩ | ⟨-, haccepted, hrefused⟩
  · exact absurd h hnot
  · simp [stats, haccepted, hrefused, discarded_offer, delivered_offer]

theorem stats_offer_of_not_open {b : Inventory α} (h : ¬ (b.accepting = true ∧ b.free ≠ []))
    (a : α) : (b.offer a).stats = { b.stats with dropped := b.stats.dropped + 1 } := by
  rcases offer_cases b a with ⟨hoffer, -⟩ | ⟨hopen, -⟩
  · rw [hoffer]
    simp only [stats, refuse, List.length_append, List.length_singleton]
    congr 1
    omega
  · exact absurd hopen h

theorem discardAll_of_queued_nil {b : Inventory α} (h : b.queued = []) : b.discardAll = b := by
  cases b
  simp only at h
  simp [discardAll, h]

end Inventory

/-! ## What an inventory describes -/

/-- The inventory describes a shared state. -/
structure Shared.Holds {α : Type} (s : Shared α) (b : Inventory α) : Prop where
  capacity : s.capacity = b.capacity
  accepting : s.accepting = b.accepting
  stack : s.pool.IsStack b.free
  queue : s.queue.Holds s.links (b.queued.map Prod.fst)
  /-- The records that are not free hold their events, and no others hold any. -/
  slots : ∀ i a, s.slots.payload? i = some a ↔ (i, a) ∈ b.occupied
  /-- Each record is in exactly one place. -/
  places : (b.free ++ b.occupied.map Prod.fst).Perm (List.range b.capacity)
  /-- The stub comes after all records. -/
  stub : s.queue.stub = b.capacity
  slots_size : s.slots.size = b.capacity
  /-- There is a link for each record and for the stub. -/
  links_size : s.links.size = b.capacity + 1
  stats : s.stats = b.stats
  destroyed : s.destroyed.Perm b.destroyed
  unbroken : s.broken = []

/-- Among pairs with different keys the pairs behind one of them have other keys. -/
theorem mem_iff_ne_and_mem_of_perm {α : Type} {all rest : List (Nat × α)} {i : Nat} {a : α}
    (hperm : all.Perm ((i, a) :: rest)) (hnodup : (all.map Prod.fst).Nodup) (p : Nat × α) :
    p ∈ rest ↔ p.1 ≠ i ∧ p ∈ all := by
  have hkeys : ((i, a) :: rest).map Prod.fst |>.Nodup := ((hperm.map _).nodup_iff).1 hnodup
  rw [List.map_cons, List.nodup_cons] at hkeys
  rw [hperm.mem_iff, List.mem_cons]
  constructor
  · intro hp
    refine ⟨?_, Or.inr hp⟩
    intro heq
    have hkey : p.1 ∈ rest.map Prod.fst := List.mem_map.2 ⟨p, hp, rfl⟩
    exact hkeys.1 (heq ▸ hkey)
  · rintro ⟨hne, rfl | hp⟩
    · exact absurd rfl hne
    · exact hp

namespace Shared

variable {α : Type} {s : Shared α} {b : Inventory α} {i : Nat} {a : α}

/-! ## Facts about places -/

theorem nodup_of_holds (h : s.Holds b) : (b.free ++ b.occupied.map Prod.fst).Nodup :=
  h.places.nodup_iff.2 List.nodup_range

theorem nodup_occupied_of_holds (h : s.Holds b) : (b.occupied.map Prod.fst).Nodup :=
  (List.nodup_append.1 (nodup_of_holds h)).2.1

/-- A free record is not occupied. -/
theorem not_mem_occupied_of_free (h : s.Holds b) (hi : i ∈ b.free) :
    i ∉ b.occupied.map Prod.fst := by
  intro hocc
  exact (List.nodup_append.1 (nodup_of_holds h)).2.2 i hi i hocc rfl

/-- An occupied record is not free. -/
theorem not_mem_free_of_occupied (h : s.Holds b) (hi : (i, a) ∈ b.occupied) : i ∉ b.free := by
  intro hfree
  exact not_mem_occupied_of_free h hfree (List.mem_map_of_mem hi)

/-- The occupied records are records of the pool. -/
theorem lt_capacity_of_occupied (h : s.Holds b) (hi : (i, a) ∈ b.occupied) : i < b.capacity := by
  have hmem : i ∈ b.free ++ b.occupied.map Prod.fst :=
    List.mem_append_right _ (List.mem_map_of_mem hi)
  exact List.mem_range.1 (h.places.mem_iff.1 hmem)

/-- Every record is counted in one place. -/
theorem length_places_of_holds (h : s.Holds b) :
    b.free.length + (b.queued.length + b.held.length) = b.capacity := by
  have hlength := h.places.length_eq
  simpa [Inventory.occupied] using hlength

theorem available_of_holds (h : s.Holds b) : s.available = b.free.length :=
  Pool.available_of_isStack h.stack

/-- A record holds an event exactly if it is not free. -/
theorem isOccupied_of_holds (h : s.Holds b) :
    s.slots.isOccupied i = true ↔ i ∈ b.occupied.map Prod.fst := by
  rw [Slots.isOccupied, Option.isSome_iff_exists]
  constructor
  · rintro ⟨a, ha⟩
    exact List.mem_map_of_mem ((h.slots i a).1 ha)
  · intro hi
    rcases List.mem_map.1 hi with ⟨⟨j, a⟩, hp, rfl⟩
    exact ⟨a, (h.slots j a).2 hp⟩

/-! ## Small changes -/

/-- Only places, counters, destroyed events and broken promises matter to an inventory. -/
theorem Holds.congr {t : Shared α} (h : s.Holds b) (hpool : t.pool = s.pool)
    (hqueue : t.queue = s.queue) (hlinks : t.links = s.links) (hslots : t.slots = s.slots)
    (hstats : t.stats = s.stats) (haccepting : t.accepting = s.accepting)
    (hdestroyed : t.destroyed = s.destroyed) (hbroken : t.broken = s.broken) : t.Holds b where
  capacity := by
    rw [Shared.capacity, hpool]
    exact h.capacity
  accepting := haccepting.trans h.accepting
  stack := hpool ▸ h.stack
  queue := by
    rw [hqueue, hlinks]
    exact h.queue
  slots := hslots ▸ h.slots
  places := h.places
  stub := hqueue ▸ h.stub
  slots_size := hslots ▸ h.slots_size
  links_size := hlinks ▸ h.links_size
  stats := hstats.trans h.stats
  destroyed := hdestroyed ▸ h.destroyed
  unbroken := hbroken.trans h.unbroken

theorem holds_remark (h : s.Holds b) (side : Side) (d : Diagnostic) :
    (s.remark side d).Holds b :=
  h.congr rfl rfl rfl rfl rfl rfl rfl rfl

theorem holds_remarkAll (h : s.Holds b) (side : Side) (ds : List Diagnostic) :
    (s.remarkAll side ds).Holds b := by
  induction ds generalizing s with
  | nil => exact h
  | cons d ds ih => exact ih (holds_remark h side d)

/-! ## New engines -/

/-- The inventory of a new engine has all records free. -/
theorem holds_new {capacity : Nat} (h : Shared.new capacity = .ok s) :
    s.Holds (Inventory.new capacity) := by
  unfold Shared.new at h
  split at h
  · cases h
  · rename_i pool hpool
    cases h
    rcases Pool.isStack_new hpool with ⟨hstack, hcapacity⟩
    exact {
      capacity := hcapacity
      accepting := rfl
      stack := hstack
      queue := Queue.holds_new (by simp [Links.blank, Links.size])
        (by simp [Links.blank, Links.get])
      slots := by
        intro i a
        have hblank : (Slots.blank capacity : Slots α).payload? i = none := by
          unfold Slots.payload? Slots.blank
          rw [Array.getElem?_replicate]
          split <;> rfl
        simp [hblank, Inventory.new, Inventory.occupied]
      places := by simp [Inventory.new, Inventory.occupied]
      stub := rfl
      slots_size := by simp [Slots.size, Slots.blank, Inventory.new]
      links_size := by simp [Links.size, Links.blank, Inventory.new]
      stats := rfl
      destroyed := List.Perm.refl []
      unbroken := rfl }

/-! ## Offered events -/

/-- A refused event is destroyed and counted. -/
theorem holds_refuse (h : s.Holds b) (a : α) : (s.refuse a).Holds (b.refuse a) where
  capacity := h.capacity
  accepting := h.accepting
  stack := h.stack
  queue := h.queue
  slots := h.slots
  places := h.places
  stub := h.stub
  slots_size := h.slots_size
  links_size := h.links_size
  stats := by
    have hstats := h.stats
    simp only [refuse, countDropped, destroy, hstats, Inventory.stats, Inventory.refuse,
      List.length_append, List.length_singleton]
    congr 1
    omega
  destroyed := by
    have hlast : (a :: (b.delivered ++ b.discarded ++ b.refused ++ b.unreturned)).Perm
        (b.delivered ++ b.discarded ++ b.refused ++ a :: b.unreturned) := List.perm_middle.symm
    refine (h.destroyed.cons a).trans ?_
    simpa [Inventory.destroyed, Inventory.refuse] using hlast
  unbroken := h.unbroken

/-- Without a free record an event is refused. -/
theorem offer_of_exhausted (h : s.Holds b) (hfree : b.free = []) : s.offer a = s.refuse a := by
  have hacquire : s.pool.acquire = .ok (none, s.pool) :=
    Pool.acquire_of_isStack_nil (hfree ▸ h.stack)
  unfold offer
  split
  · rfl
  · rw [hacquire]

/-- Once no events are accepted every event is refused. -/
theorem offer_of_not_accepting (hs : s.accepting = false) : s.offer a = s.refuse a := by
  rw [offer, hs]
  rfl

/-- An event that finds a free record is put into it and behind all others. -/
theorem holds_offer_of_free {free : List Nat} (h : s.Holds b) (haccepting : b.accepting = true)
    (hfree : b.free = i :: free) :
    (s.offer a).Holds
      { b with free, queued := b.queued ++ [(i, a)], accepted := b.accepted ++ [a] } := by
  have hmem : i ∈ b.free := hfree ▸ List.mem_cons_self
  have hnot : i ∉ b.occupied.map Prod.fst := not_mem_occupied_of_free h hmem
  have hlt : i < b.capacity := h.capacity ▸ h.stack.bounded i hmem
  rcases Pool.acquire_of_isStack_cons (hfree ▸ h.stack) with ⟨pool, hacquire, hstack, hcapacity⟩
  have hempty : ¬ s.slots.isOccupied i = true := by
    intro hocc
    exact hnot ((isOccupied_of_holds h).1 hocc)
  obtain ⟨slots, hplace⟩ : ∃ t, s.slots.place i a = .ok t := by
    rw [Slots.place, if_neg hempty]
    exact ⟨_, rfl⟩
  have hqueue : i ∉ s.queue.stub :: b.queued.map Prod.fst := by
    rw [h.stub, List.mem_cons]
    rintro (heq | hi)
    · omega
    · exact hnot (by simp [Inventory.occupied, hi])
  have hoffer : s.offer a =
      { s with
        pool, slots
        queue := (s.queue.push s.links i).1
        links := (s.queue.push s.links i).2
        stats := { s.stats with enqueued := s.stats.enqueued + 1 } } := by
    rw [offer, h.accepting, haccepting, hacquire]
    simp only [Bool.not_true, Bool.false_eq_true, if_false, append, hplace, countEnqueued]
  rw [hoffer]
  exact {
    capacity := hcapacity.trans h.capacity
    accepting := h.accepting
    stack := hstack
    queue := by
      have hsize : i < s.links.size := by
        rw [h.links_size]
        omega
      simpa using Queue.push_of_holds h.queue hqueue hsize
    slots := by
      intro j c
      have hslots := h.slots j c
      have hslot : i < s.slots.size := h.slots_size ▸ hlt
      rw [Slots.payload?_place hplace]
      by_cases hj : j = i
      · subst hj
        have hold : (j, c) ∉ b.occupied := by
          intro hocc
          exact hnot (List.mem_map_of_mem hocc)
        simp [Inventory.occupied] at hold ⊢
        simp [hslot, hold, eq_comm]
      · rw [if_neg (fun h => hj h.1), hslots]
        simp [Inventory.occupied, hj]
    places := by
      refine List.Perm.trans ?_ h.places
      rw [hfree, List.perm_iff_count]
      intro x
      simp [Inventory.occupied, List.count_cons]
      omega
    stub := h.stub
    slots_size := (Slots.size_place hplace).trans h.slots_size
    links_size := by
      simpa using h.links_size
    stats := by
      simp [h.stats, Inventory.stats]
    destroyed := h.destroyed
    unbroken := h.unbroken }

/-- An offered event takes the course that the inventory says. -/
theorem holds_offer (h : s.Holds b) (a : α) : (s.offer a).Holds (b.offer a) := by
  cases haccepting : b.accepting with
  | false =>
      rw [offer_of_not_accepting (h.accepting.trans haccepting)]
      simpa [Inventory.offer, haccepting] using holds_refuse h a
  | true =>
      cases hfree : b.free with
      | nil =>
          rw [offer_of_exhausted h hfree]
          simpa [Inventory.offer, hfree] using holds_refuse h a
      | cons i free =>
          simpa [Inventory.offer, haccepting, hfree] using holds_offer_of_free h haccepting hfree

/-! ## Records on their way -/

/-- Nothing is taken out of an empty queue. -/
theorem takeOldest_of_queued_nil (h : s.Holds b) (hqueued : b.queued = []) :
    s.takeOldest = (none, s) := by
  have hqueue : s.queue.Holds s.links [] := by simpa [hqueued] using h.queue
  rw [takeOldest, Queue.pop_of_holds_nil hqueue]

/-- The oldest event is taken out of the queue. -/
theorem holds_takeOldest {queued : List (Nat × α)} (h : s.Holds b)
    (hqueued : b.queued = (i, a) :: queued) :
    ∃ t, s.takeOldest = (some i, t) ∧ t.Holds { b with queued, held := (i, a) :: b.held } := by
  have hqueue : s.queue.Holds s.links (i :: queued.map Prod.fst) := by
    simpa [hqueued] using h.queue
  rcases Queue.pop_of_holds_cons hqueue with ⟨queue, links, hpop, hrest, hout⟩
  have hoccupied : b.occupied.Perm (queued ++ (i, a) :: b.held) := by
    simpa [Inventory.occupied, hqueued] using List.perm_middle.symm
  refine ⟨{ s with queue, links }, by rw [takeOldest, hpop], ?_⟩
  exact {
    capacity := h.capacity
    accepting := h.accepting
    stack := h.stack
    queue := hrest
    slots := fun j c => (h.slots j c).trans hoccupied.mem_iff
    places := ((hoccupied.map Prod.fst).append_left b.free).symm.trans h.places
    stub := hout.stub_eq.trans h.stub
    slots_size := h.slots_size
    links_size := hout.size_eq.trans h.links_size
    stats := h.stats
    destroyed := h.destroyed
    unbroken := h.unbroken }

/-- The payload in an occupied record is destroyed. -/
theorem destroyIn_of_occupied (h : s.Holds b) (hi : (i, a) ∈ b.occupied) :
    s.destroyIn i = { s with destroyed := a :: s.destroyed, slots := s.slots.clear i } := by
  rw [destroyIn, (h.slots i a).2 hi]
  rfl

/-- An occupied record whose event is destroyed becomes the next to be used. -/
theorem freed_of_occupied {rest : List (Nat × α)} (h : s.Holds b)
    (hperm : b.occupied.Perm ((i, a) :: rest)) :
    ∃ pool, s.pool.release (s.pool.record i) = .ok pool ∧ pool.IsStack (i :: b.free) ∧
      pool.capacity = b.capacity ∧ (s.slots.clear i).isOccupied i = false ∧
      (∀ j c, (s.slots.clear i).payload? j = some c ↔ (j, c) ∈ rest) ∧
      (i :: b.free ++ rest.map Prod.fst).Perm (List.range b.capacity) := by
  have hi : (i, a) ∈ b.occupied := hperm.mem_iff.2 List.mem_cons_self
  have hlt : i < s.pool.capacity := by
    have hlt := lt_capacity_of_occupied h hi
    rw [← h.capacity] at hlt
    exact hlt
  obtain ⟨pool, hrelease, hstack, hcapacity⟩ :=
    Pool.release_of_isStack h.stack hlt (not_mem_free_of_occupied h hi)
  refine ⟨pool, hrelease, hstack, hcapacity.trans h.capacity, ?_, ?_, ?_⟩
  · rw [Slots.isOccupied, Slots.payload?_clear, if_pos rfl]
    rfl
  · intro j c
    rw [Slots.payload?_clear,
      mem_iff_ne_and_mem_of_perm hperm (nodup_occupied_of_holds h), ← h.slots j c]
    by_cases hj : j = i
    · simp [hj]
    · simp [hj]
  · refine List.Perm.trans ?_ h.places
    refine List.Perm.trans ?_ ((hperm.map Prod.fst).symm.append_left b.free)
    exact List.perm_middle.symm

/-- A delivered event is destroyed and counted, and its record becomes free. -/
theorem holds_retire {held : List (Nat × α)} (h : s.Holds b) (hheld : b.held = (i, a) :: held) :
    (s.retire i).Holds
      { b with free := i :: b.free, held, delivered := b.delivered ++ [a] } := by
  have hperm : b.occupied.Perm ((i, a) :: (b.queued ++ held)) := by
    rw [Inventory.occupied, hheld]
    exact List.perm_middle
  rcases freed_of_occupied h hperm with ⟨pool, hrelease, hstack, hcapacity, hempty, hslots, hplaces⟩
  have hretire : s.retire i =
      { s with
        pool
        slots := s.slots.clear i
        destroyed := a :: s.destroyed
        stats := { s.stats with written := s.stats.written + 1 } } := by
    rw [retire, destroyIn_of_occupied h (hperm.mem_iff.2 List.mem_cons_self)]
    simp [release, countWritten, hempty, hrelease]
  rw [hretire]
  exact {
    capacity := hcapacity
    accepting := h.accepting
    stack := hstack
    queue := h.queue
    slots := hslots
    places := hplaces
    stub := h.stub
    slots_size := by simpa using h.slots_size
    links_size := h.links_size
    stats := by simp [h.stats, Inventory.stats]
    destroyed := by
      have hlast : (a :: (b.delivered ++ (b.discarded ++ b.refused ++ b.unreturned))).Perm
          (b.delivered ++ a :: (b.discarded ++ b.refused ++ b.unreturned)) :=
        List.perm_middle.symm
      refine (h.destroyed.cons a).trans ?_
      simpa [Inventory.destroyed] using hlast
    unbroken := h.unbroken }

/-- A discarded event is destroyed and counted, and its record becomes free. -/
theorem holds_discard {held : List (Nat × α)} (h : s.Holds b) (hheld : b.held = (i, a) :: held) :
    (s.discard i).Holds
      { b with free := i :: b.free, held, discarded := b.discarded ++ [a] } := by
  have hperm : b.occupied.Perm ((i, a) :: (b.queued ++ held)) := by
    rw [Inventory.occupied, hheld]
    exact List.perm_middle
  rcases freed_of_occupied h hperm with ⟨pool, hrelease, hstack, hcapacity, hempty, hslots, hplaces⟩
  have hdiscard : s.discard i =
      { s with
        pool
        slots := s.slots.clear i
        destroyed := a :: s.destroyed
        stats := { s.stats with dropped := s.stats.dropped + 1 } } := by
    rw [discard, destroyIn_of_occupied h (hperm.mem_iff.2 List.mem_cons_self)]
    simp [release, countDropped, hempty, hrelease]
  rw [hdiscard]
  exact {
    capacity := hcapacity
    accepting := h.accepting
    stack := hstack
    queue := h.queue
    slots := hslots
    places := hplaces
    stub := h.stub
    slots_size := by simpa using h.slots_size
    links_size := h.links_size
    stats := by
      simp [h.stats, Inventory.stats]
      omega
    destroyed := by
      have hlast : (a :: (b.delivered ++ b.discarded ++ (b.refused ++ b.unreturned))).Perm
          (b.delivered ++ b.discarded ++ a :: (b.refused ++ b.unreturned)) :=
        List.perm_middle.symm
      refine (h.destroyed.cons a).trans ?_
      simpa [Inventory.destroyed] using hlast
    unbroken := h.unbroken }

/-! ## Discarding the rest -/

/-- Enough rounds of discarding empty the queue, from its head on. -/
theorem holds_discardUpTo {fuel : Nat} (h : s.Holds b) (hfuel : b.queued.length ≤ fuel) :
    (s.discardUpTo fuel).1 = b.queued.length ∧ (s.discardUpTo fuel).2.Holds b.discardAll := by
  induction fuel generalizing s b with
  | zero =>
      have hqueued : b.queued = [] := List.length_eq_zero_iff.1 (Nat.le_zero.1 hfuel)
      refine ⟨by simp [discardUpTo, hqueued], ?_⟩
      rw [Inventory.discardAll_of_queued_nil hqueued]
      exact h
  | succ fuel ih =>
      cases hqueued : b.queued with
      | nil =>
          rw [discardUpTo, takeOldest_of_queued_nil h hqueued]
          refine ⟨rfl, ?_⟩
          rw [Inventory.discardAll_of_queued_nil hqueued]
          exact h
      | cons p queued =>
          rcases p with ⟨i, a⟩
          rcases holds_takeOldest h hqueued with ⟨t, htake, ht⟩
          have hdiscard := holds_discard ht rfl
          have hlength : queued.length ≤ fuel := by
            rw [hqueued, List.length_cons] at hfuel
            omega
          rcases ih hdiscard hlength with ⟨hcount, hrest⟩
          rw [discardUpTo, htake]
          refine ⟨by simp [hcount], ?_⟩
          simpa [Inventory.discardAll, hqueued] using hrest

/-- Discarding the rest empties the queue. -/
theorem holds_discardAll (h : s.Holds b) :
    s.discardAll.1 = b.queued.length ∧ s.discardAll.2.Holds b.discardAll := by
  apply holds_discardUpTo h
  have hplaces := length_places_of_holds h
  rw [h.capacity]
  omega

end Shared

end EventLog
