import Mathlib.Logic.Function.Basic
import EventLog.Interleaving.QueueThreads

/-!
# Paths that are being appended to

Between the exchange of the tail and the publication of a node the chain of links is broken
there.  The nodes between head and tail still have an order, that of the exchanges: every link
leads to the next node in that order, or to none while the thread that appended that node has
still to publish it.

Main results:

- `Queue.Path.advance`: the head moves on along a link to the next node of the path.
- `Queue.Path.push`: a step of a push appends to the path at the exchange and nowhere else.
-/

namespace EventLog

namespace Queue

/-! ## The order of a path -/

/-- The node behind a node on a path. -/
def after? : List Address → Address → Option Address
  | a :: b :: rest, node => if node = a then some b else after? (b :: rest) node
  | _, _ => none

variable {a b n t : Address} {chain rest : List Address}

theorem after?_cons_self (a : Address) (rest : List Address) :
    after? (a :: rest) a = rest.head? := by
  cases rest with
  | nil => rfl
  | cons b rest => simp [after?]

theorem after?_cons_of_ne (h : n ≠ a) : after? (a :: rest) n = after? rest n := by
  cases rest with
  | nil => rfl
  | cons b rest => simp [after?, h]

/-- Only nodes of the path have a next one, and it is on the path. -/
theorem mem_of_after? (h : after? chain a = some b) : a ∈ chain ∧ b ∈ chain := by
  induction chain with
  | nil => cases h
  | cons c rest ih =>
      by_cases hac : a = c
      · subst hac
        rw [after?_cons_self] at h
        exact ⟨List.mem_cons_self, List.mem_cons_of_mem a (List.mem_of_head? h)⟩
      · rw [after?_cons_of_ne hac] at h
        exact ⟨List.mem_cons_of_mem c (ih h).1, List.mem_cons_of_mem c (ih h).2⟩

/-- The last node has no next one. -/
theorem after?_getLast? (hnodup : chain.Nodup) (hlast : chain.getLast? = some t) :
    after? chain t = none := by
  induction chain with
  | nil => rfl
  | cons c rest ih =>
      rcases List.nodup_cons.1 hnodup with ⟨hc, hrest⟩
      cases rest with
      | nil => rfl
      | cons d rest =>
          rw [List.getLast?_cons_cons] at hlast
          have htc : t ≠ c := fun heq => hc (heq ▸ List.mem_of_getLast? hlast)
          rw [after?_cons_of_ne htc]
          exact ih hrest hlast

/-- Every other node has one. -/
theorem exists_after? (hlast : chain.getLast? = some t) (ha : a ∈ chain) (hne : a ≠ t) :
    ∃ b, after? chain a = some b := by
  induction chain with
  | nil => cases ha
  | cons c rest ih =>
      cases rest with
      | nil =>
          have hac : a = c := by simpa using ha
          have hct : c = t := by simpa using hlast
          exact absurd (hac.trans hct) hne
      | cons d rest =>
          rw [List.getLast?_cons_cons] at hlast
          by_cases hac : a = c
          · exact ⟨d, by simp [after?, hac]⟩
          · rw [after?_cons_of_ne hac]
            exact ih hlast (List.mem_of_ne_of_mem hac ha)

/-- A node that is appended is behind the last one. -/
theorem after?_append (hnodup : chain.Nodup) (hlast : chain.getLast? = some t) (n a : Address) :
    after? (chain ++ [n]) a = if a = t then some n else after? chain a := by
  induction chain with
  | nil => cases hlast
  | cons c rest ih =>
      rcases List.nodup_cons.1 hnodup with ⟨hc, hrest⟩
      cases rest with
      | nil =>
          have hct : c = t := by simpa using hlast
          simp [after?, hct]
      | cons d rest =>
          rw [List.getLast?_cons_cons] at hlast
          by_cases hac : a = c
          · have hat : a ≠ t := fun heq => hc (hac ▸ heq ▸ List.mem_of_getLast? hlast)
            rw [if_neg hat]
            simp [after?, hac]
          · rw [List.cons_append, after?_cons_of_ne hac, after?_cons_of_ne hac]
            exact ih hrest hlast

/-! ## Paths -/

/-- The node that a push is about. -/
def PushPhase.node? : PushPhase → Option Address
  | clear node => some node
  | exchange node => some node
  | publish node _ => some node
  | done => none

/-- A push fits to a path: its node is not yet on the path, or its node is on the path and the
link to it is still missing. -/
def PushPhase.Fits (l : Links) (chain : List Address) : PushPhase → Prop
  | clear node => node ∉ chain ∧ node < l.size
  | exchange node => node ∉ chain ∧ node < l.size ∧ l.get node = none
  | publish node former => after? chain former = some node ∧ l.get former = none
  | done => True

/-- The path after a step of a push. -/
def PushPhase.extend (chain : List Address) : PushPhase → List Address
  | exchange node => chain ++ [node]
  | _ => chain

variable {ι : Type}

/-- The nodes from head to tail in the order in which they were appended. -/
structure Path (q : Queue) (l : Links) (pushes : ι → Option PushPhase) (chain : List Address) :
    Prop where
  head_eq : chain.head? = some q.head
  tail_eq : chain.getLast? = some q.tail
  nodup : chain.Nodup
  bounded : ∀ a ∈ chain, a < l.size
  /-- Every link leads to the next node, or is still to be published. -/
  links : ∀ a ∈ chain, l.get a = after? chain a ∨
    l.get a = none ∧ ∃ i b, pushes i = some (.publish b a)
  fits : ∀ i phase, pushes i = some phase → phase.Fits l chain
  /-- No node is pushed by two threads. -/
  apart : ∀ i j v w node, pushes i = some v → pushes j = some w → v.node? = some node →
    w.node? = some node → i = j

namespace Path

variable {q : Queue} {l : Links} {pushes : ι → Option PushPhase} {i : ι} {node former : Address}

theorem head_mem (h : Path q l pushes chain) : q.head ∈ chain := List.mem_of_head? h.head_eq

theorem tail_mem (h : Path q l pushes chain) : q.tail ∈ chain := List.mem_of_getLast? h.tail_eq

theorem get_tail (h : Path q l pushes chain) : l.get q.tail = none := by
  rcases h.links q.tail h.tail_mem with hnext | ⟨hnone, -⟩
  · rw [hnext, after?_getLast? h.nodup h.tail_eq]
  · exact hnone

/-- A link leads to the next node. -/
theorem after?_of_get (h : Path q l pushes chain) (ha : a ∈ chain) (hget : l.get a = some b) :
    after? chain a = some b := by
  rcases h.links a ha with hnext | ⟨hnone, -⟩
  · rw [← hnext, hget]
  · rw [hnone] at hget
    cases hget

/-- What one thread pushes no other does. -/
theorem node?_ne (h : Path q l pushes chain) {v : PushPhase} (hi : pushes i = some v)
    (hv : v.node? = some node) {j : ι} {w : PushPhase} (hj : j ≠ i) (hw : pushes j = some w) :
    w.node? ≠ some node :=
  fun hnode => hj (h.apart j i w v node hw hi hnode hv)

/-- The link of a node that is not on the path can be cleared. -/
theorem clear (h : Path q l pushes chain) (hn : n ∉ chain) :
    Path q (l.set n none) pushes chain where
  head_eq := h.head_eq
  tail_eq := h.tail_eq
  nodup := h.nodup
  bounded := by
    intro a ha
    rw [Links.size_set]
    exact h.bounded a ha
  links := by
    intro a ha
    have han : a ≠ n := fun heq => hn (heq ▸ ha)
    simpa [Links.get_set, han] using h.links a ha
  fits := by
    intro i phase hi
    have hfits := h.fits i phase hi
    cases phase with
    | clear node => simpa [PushPhase.Fits] using hfits
    | exchange node => simp_all [PushPhase.Fits, Links.get_set]
    | publish node former =>
        have hne : former ≠ n := fun heq => hn (heq ▸ (mem_of_after? hfits.1).1)
        simpa [PushPhase.Fits, Links.get_set, hne] using hfits
    | done => trivial
  apart := h.apart

/-- Head and tail are apart once there is another node. -/
theorem tail_ne_head (h : Path q l pushes chain) (ha : a ∈ chain) (hne : a ≠ q.head) :
    q.tail ≠ q.head := by
  have hhead := h.head_eq
  have htail := h.tail_eq
  have hnodup := h.nodup
  cases chain with
  | nil => cases ha
  | cons c rest =>
      obtain rfl : c = q.head := by simpa using hhead
      cases rest with
      | nil => exact absurd (List.mem_singleton.1 ha) hne
      | cons d rest =>
          rw [List.getLast?_cons_cons] at htail
          intro heq
          exact (List.nodup_cons.1 hnodup).1 (heq ▸ List.mem_of_getLast? htail)

/-- Otherwise there is none. -/
theorem eq_singleton (h : Path q l pushes chain) (htail : q.tail = q.head) :
    chain = [q.head] := by
  have hall : ∀ a ∈ chain, a = q.head := by
    intro a ha
    by_contra hne
    exact h.tail_ne_head ha hne htail
  have hreplicate := List.eq_replicate_iff.2 ⟨rfl, hall⟩
  have hlength : chain.length ≤ 1 := List.nodup_replicate.1 (hreplicate ▸ h.nodup)
  have hpos : chain.length ≠ 0 := fun hzero => by
    have hhead := h.head_eq
    rw [List.length_eq_zero_iff.1 hzero] at hhead
    cases hhead
  rw [hreplicate, show chain.length = 1 by omega]
  rfl

/-- The head moves on along a link to the next node of the path. -/
theorem advance (h : Path q l pushes chain) (hnext : l.get q.head = some n) :
    ∃ rest, chain = q.head :: rest ∧ n ∈ rest ∧ Path { q with head := n } l pushes rest := by
  have hafter := h.after?_of_get h.head_mem hnext
  cases hchain : chain with
  | nil =>
      rw [hchain] at h
      cases h.head_eq
  | cons c rest =>
      obtain rfl : c = q.head := by simpa [hchain] using h.head_eq
      rw [hchain] at h
      rw [hchain, after?_cons_self] at hafter
      have hnodup := List.nodup_cons.1 h.nodup
      have hne : ∀ a ∈ rest, a ≠ q.head := fun a ha heq => hnodup.1 (heq ▸ ha)
      refine ⟨rest, rfl, List.mem_of_head? hafter, ?_⟩
      exact {
        head_eq := hafter
        tail_eq := by
          have htail := h.tail_eq
          cases rest with
          | nil => cases hafter
          | cons d rest => rwa [List.getLast?_cons_cons] at htail
        nodup := hnodup.2
        bounded := fun a ha => h.bounded a (List.mem_cons_of_mem _ ha)
        links := by
          intro a ha
          have hlink := h.links a (List.mem_cons_of_mem _ ha)
          rwa [after?_cons_of_ne (hne a ha)] at hlink
        fits := by
          intro i phase hi
          have hfits := h.fits i phase hi
          cases phase with
          | clear node => exact ⟨List.not_mem_of_not_mem_cons hfits.1, hfits.2⟩
          | exchange node => exact ⟨List.not_mem_of_not_mem_cons hfits.1, hfits.2⟩
          | publish node former =>
              have hformer : former ≠ q.head := by
                rintro rfl
                rw [hfits.2] at hnext
                cases hnext
              refine ⟨?_, hfits.2⟩
              rw [← after?_cons_of_ne hformer]
              exact hfits.1
          | done => trivial
        apart := h.apart }

/-! ## Steps of a push -/

variable [DecidableEq ι] {next : Option PushPhase}

/-- Pushes stay apart if the new one is about a node of its own. -/
theorem apart_update (h : Path q l pushes chain)
    (hnext : ∀ v node, next = some v → v.node? = some node →
      ∀ j w, j ≠ i → pushes j = some w → w.node? ≠ some node) (j k : ι) (v w : PushPhase)
    (node : Address) (hj : Function.update pushes i next j = some v)
    (hk : Function.update pushes i next k = some w) (hv : v.node? = some node)
    (hw : w.node? = some node) : j = k := by
  by_cases hji : j = i
  · by_cases hki : k = i
    · rw [hji, hki]
    · subst hji
      rw [Function.update_self] at hj
      rw [Function.update_of_ne hki] at hk
      exact absurd hw (hnext v node hj hv k w hki hk)
  · rw [Function.update_of_ne hji] at hj
    by_cases hki : k = i
    · subst hki
      rw [Function.update_self] at hk
      exact absurd hv (hnext w node hk hw j v hji hj)
    · rw [Function.update_of_ne hki] at hk
      exact h.apart j k v w node hj hk hv hw

/-- A thread that has nothing to publish can be about another push. -/
theorem setPush (h : Path q l pushes chain) (hi : ∀ b a, pushes i ≠ some (.publish b a))
    (hfits : ∀ phase, next = some phase → phase.Fits l chain)
    (hnext : ∀ v node, next = some v → v.node? = some node →
      ∀ j w, j ≠ i → pushes j = some w → w.node? ≠ some node) :
    Path q l (Function.update pushes i next) chain where
  head_eq := h.head_eq
  tail_eq := h.tail_eq
  nodup := h.nodup
  bounded := h.bounded
  links := by
    intro a ha
    rcases h.links a ha with hlink | ⟨hnone, j, b, hj⟩
    · exact Or.inl hlink
    · have hji : j ≠ i := fun heq => hi b a (heq ▸ hj)
      exact Or.inr ⟨hnone, j, b, by rw [Function.update_of_ne hji, hj]⟩
  fits := by
    intro j phase hj
    by_cases hji : j = i
    · subst hji
      rw [Function.update_self] at hj
      exact hfits phase hj
    · rw [Function.update_of_ne hji] at hj
      exact h.fits j phase hj
  apart := h.apart_update hnext

/-- The exchange appends the node. -/
theorem exchange (h : Path q l pushes chain) (hi : pushes i = some (.exchange node)) :
    Path { q with tail := node } l
      (Function.update pushes i (some (.publish node q.tail))) (chain ++ [node]) := by
  rcases h.fits i _ hi with ⟨hnode, hsize, hnone⟩
  have hafter := after?_append h.nodup h.tail_eq node
  have hlast : after? chain q.tail = none := after?_getLast? h.nodup h.tail_eq
  refine {
    head_eq := by
      rw [List.head?_append, h.head_eq]
      rfl
    tail_eq := List.getLast?_concat
    nodup := by
      refine List.nodup_append.2 ⟨h.nodup, by simp, ?_⟩
      intro a ha b hb hab
      rw [List.mem_singleton.1 hb] at hab
      exact hnode (hab ▸ ha)
    bounded := by
      intro a ha
      rcases List.mem_append.1 ha with ha | ha
      · exact h.bounded a ha
      · rw [List.mem_singleton.1 ha]
        exact hsize
    links := ?_
    fits := ?_
    apart := ?_ }
  · intro a ha
    rw [hafter]
    by_cases hat : a = q.tail
    · subst hat
      exact Or.inr ⟨h.get_tail, i, node, Function.update_self ..⟩
    · rw [if_neg hat]
      rcases List.mem_append.1 ha with ha | ha
      · rcases h.links a ha with hlink | ⟨hnone', j, b, hj⟩
        · exact Or.inl hlink
        · have hji : j ≠ i := by
            rintro rfl
            rw [hi] at hj
            cases hj
          exact Or.inr ⟨hnone', j, b, by rw [Function.update_of_ne hji, hj]⟩
      · rw [List.mem_singleton.1 ha, hnone]
        refine Or.inl ?_
        cases hb : after? chain node with
        | none => rfl
        | some b => exact absurd (mem_of_after? hb).1 hnode
  · intro j w hj
    by_cases hji : j = i
    · subst hji
      rw [Function.update_self] at hj
      cases hj
      exact ⟨by rw [hafter, if_pos rfl], h.get_tail⟩
    · rw [Function.update_of_ne hji] at hj
      have hw := h.fits j w hj
      have hne : w.node? ≠ some node := h.node?_ne hi rfl hji hj
      have happend : ∀ m, m ≠ node → m ∉ chain → m ∉ chain ++ [node] := by
        intro m hm hmem
        simp [hm, hmem]
      cases w with
      | clear m => exact ⟨happend m (fun heq => hne (congrArg some heq)) hw.1, hw.2⟩
      | exchange m => exact ⟨happend m (fun heq => hne (congrArg some heq)) hw.1, hw.2⟩
      | publish m former =>
          have hformer : former ≠ q.tail := by
            rintro rfl
            cases hlast.symm.trans hw.1
          exact ⟨by rw [hafter, if_neg hformer, hw.1], hw.2⟩
      | done => trivial
  · refine h.apart_update ?_
    rintro v m ⟨⟩ hm j w hji hj
    exact h.node?_ne hi hm hji hj

/-- The publication closes the chain. -/
theorem publish (h : Path q l pushes chain) (hi : pushes i = some (.publish node former)) :
    Path q (l.set former (some node)) (Function.update pushes i none) chain := by
  have hafter : after? chain former = some node := (h.fits i _ hi).1
  have hformer : former < l.size := h.bounded former (mem_of_after? hafter).1
  -- no other thread is to publish the same link
  have hown : ∀ j b, j ≠ i → pushes j ≠ some (.publish b former) := by
    intro j b hji hj
    have hb := (h.fits j _ hj).1
    rw [hafter] at hb
    cases hb
    exact h.node?_ne hi rfl hji hj rfl
  refine {
    head_eq := h.head_eq
    tail_eq := h.tail_eq
    nodup := h.nodup
    bounded := fun a ha => by simpa using h.bounded a ha
    links := ?_
    fits := ?_
    apart := h.apart_update (by rintro v m ⟨⟩) }
  · intro a ha
    by_cases haf : a = former
    · subst haf
      exact Or.inl (by simp [Links.get_set, hformer, hafter])
    · rw [Links.get_set, if_neg fun hand => haf hand.1]
      rcases h.links a ha with hlink | ⟨hnone, j, b, hj⟩
      · exact Or.inl hlink
      · have hji : j ≠ i := by
          rintro rfl
          rw [hi] at hj
          cases hj
          exact haf rfl
        exact Or.inr ⟨hnone, j, b, by rw [Function.update_of_ne hji, hj]⟩
  · intro j w hj
    by_cases hji : j = i
    · subst hji
      rw [Function.update_self] at hj
      cases hj
    · rw [Function.update_of_ne hji] at hj
      have hw := h.fits j w hj
      cases w with
      | clear m => simpa [PushPhase.Fits] using hw
      | exchange m =>
          have hne : m ≠ former := fun heq => hw.1 (heq ▸ (mem_of_after? hafter).1)
          simpa [PushPhase.Fits, Links.get_set, hne] using hw
      | publish m former' =>
          have hne : former' ≠ former := fun heq => hown j m hji (heq ▸ hj)
          simpa [PushPhase.Fits, Links.get_set, hne] using hw
      | done => trivial

/-- A step of a push appends to the path at the exchange and nowhere else. -/
theorem push {phase : PushPhase} (h : Path q l pushes chain) (hi : pushes i = some phase) :
    let next := phase.step q l
    Path next.2.1 next.2.2 (Function.update pushes i (QueueThreads.openPush next.1))
      (phase.extend chain) := by
  have hfits := h.fits i phase hi
  cases phase with
  | clear node =>
      refine (h.clear hfits.1).setPush (by simp [hi]) ?_ ?_
      · rintro phase ⟨⟩
        exact ⟨hfits.1, by simpa using hfits.2, by simp [Links.get_set, hfits.2]⟩
      · rintro v m ⟨⟩ hm j w hji hj
        exact h.node?_ne hi hm hji hj
  | exchange node => exact h.exchange hi
  | publish node former => exact h.publish hi
  | done =>
      refine h.setPush (by simp [hi]) ?_ ?_
      · rintro phase ⟨⟩
      · rintro v m ⟨⟩

end Path

end Queue

end EventLog
