import Mathlib.Data.List.Perm.Subperm
import EventLog.Transport.Queue

/-!
# The nodes in a queue

The nodes of a queue are those that its links lead to from the head to the tail, the
stub left out.  This module reads that path as a list, with the oldest node first, and
gives each call of the queue as an operation on the list.

The stub is either in front of all nodes or out of the path: it is put behind the last
node in the same call that hands this node out.

Main results:

- `Queue.push_of_holds`: a node that is in no queue is put behind all others.
- `Queue.pop_of_holds_cons` and `Queue.pop_of_holds_nil`: the oldest node is handed out,
  and none exactly when there is none.
- `Queue.holds_of_agrees`: only the links of a queue's own nodes matter to it.
- `Queue.contents_of_holds`: a walk along the links finds the nodes.
-/

namespace EventLog

namespace Queue

/-! ## Paths along links -/

/-- The links lead from `node` through the listed nodes, and end at `tail`. -/
def Chained (l : Links) (tail : Address) : Address → List Address → Prop
  | node, [] => node = tail ∧ l.get node = none
  | node, next :: rest => l.get node = some next ∧ Chained l tail next rest

variable {l l' : Links} {tail node n : Address} {rest : List Address}

/-- The tail is on the path. -/
theorem tail_mem_of_chained (h : Chained l tail node rest) : tail ∈ node :: rest := by
  induction rest generalizing node with
  | nil =>
      rw [h.1]
      exact List.mem_cons_self
  | cons next rest ih => exact List.mem_cons_of_mem node (ih h.2)

/-- Only the links of the nodes on the path matter. -/
theorem chained_of_agrees (hl : ∀ m ∈ node :: rest, l'.get m = l.get m)
    (h : Chained l tail node rest) : Chained l' tail node rest := by
  induction rest generalizing node with
  | nil => exact ⟨h.1, (hl node List.mem_cons_self).trans h.2⟩
  | cons next rest ih =>
      refine ⟨(hl node List.mem_cons_self).trans h.1, ih ?_ h.2⟩
      intro m hm
      exact hl m (List.mem_cons_of_mem node hm)

/-- A node that is linked behind the tail ends the path. -/
theorem chained_snoc (h : Chained l tail node rest) (hnodup : (node :: rest).Nodup)
    (hn : n ∉ node :: rest) (hsize : n < l.size) (htail : tail < l.size) :
    Chained ((l.set n none).set tail (some n)) n node (rest ++ [n]) := by
  induction rest generalizing node with
  | nil =>
      rcases h with ⟨rfl, -⟩
      have hne : n ≠ node := List.ne_of_not_mem_cons hn
      refine ⟨?_, rfl, ?_⟩
      · rw [Links.get_set, if_pos ⟨rfl, by simpa using htail⟩]
      · rw [Links.get_set, if_neg (fun h => hne h.1), Links.get_set, if_pos ⟨rfl, hsize⟩]
  | cons next rest ih =>
      rcases List.nodup_cons.1 hnodup with ⟨hnot, hrest⟩
      have hnode : node ≠ tail := by
        intro heq
        exact hnot (heq ▸ tail_mem_of_chained h.2)
      have hne : node ≠ n := (List.ne_of_not_mem_cons hn).symm
      refine ⟨?_, ih h.2 hrest (List.not_mem_of_not_mem_cons hn)⟩
      rw [Links.get_set, if_neg (fun h => hnode h.1), Links.get_set, if_neg (fun h => hne h.1)]
      exact h.1

/-! ## The nodes of a queue -/

/-- The nodes in a queue, the oldest first. -/
structure Holds (q : Queue) (l : Links) (nodes : List Address) : Prop where
  /-- The path starts at the stub, or at the oldest node when the stub is out of it. -/
  chained : q.head = q.stub ∧ Chained l q.tail q.stub nodes ∨
    ∃ rest, nodes = q.head :: rest ∧ Chained l q.tail q.head rest
  /-- No node is there twice, and the stub is none of them. -/
  nodup : (q.stub :: nodes).Nodup
  /-- All of them have a link. -/
  bounded : ∀ m ∈ q.stub :: nodes, m < l.size

variable {q : Queue} {nodes : List Address}

/-- The tail is the stub or one of the nodes. -/
theorem tail_mem_of_holds (h : q.Holds l nodes) : q.tail ∈ q.stub :: nodes := by
  rcases h.chained with ⟨-, hpath⟩ | ⟨rest, rfl, hpath⟩
  · exact tail_mem_of_chained hpath
  · exact List.mem_cons_of_mem _ (tail_mem_of_chained hpath)

/-- A new queue has no nodes. -/
theorem holds_new {stub : Address} (hsize : stub < l.size) (hl : l.get stub = none) :
    (new stub).Holds l [] where
  chained := Or.inl ⟨rfl, rfl, hl⟩
  nodup := by simp
  bounded := by
    intro m hm
    rw [List.mem_singleton.1 hm]
    exact hsize

/-- Only the links of a queue's own nodes matter to it. -/
theorem holds_of_agrees (hl : ∀ m ∈ q.stub :: nodes, l'.get m = l.get m)
    (hsize : l'.size = l.size) (h : q.Holds l nodes) : q.Holds l' nodes where
  chained := by
    rcases h.chained with ⟨hhead, hpath⟩ | ⟨rest, rfl, hpath⟩
    · exact Or.inl ⟨hhead, chained_of_agrees hl hpath⟩
    · refine Or.inr ⟨rest, rfl, chained_of_agrees ?_ hpath⟩
      intro m hm
      exact hl m (List.mem_cons_of_mem _ hm)
  nodup := h.nodup
  bounded := by
    rw [hsize]
    exact h.bounded

/-- There is no node exactly if the list is empty. -/
theorem isEmpty_of_holds (h : q.Holds l nodes) : q.isEmpty l = nodes.isEmpty := by
  rcases h.chained with ⟨hhead, hpath⟩ | ⟨rest, rfl, hpath⟩
  · cases nodes with
    | nil =>
        rcases hpath with ⟨htail, hget⟩
        simp [isEmpty, hhead, hget, ← htail]
    | cons n nodes => simp [isEmpty, hhead, hpath.1]
  · have hne : q.head ≠ q.stub := by
      intro heq
      exact (List.nodup_cons.1 h.nodup).1 (heq ▸ List.mem_cons_self)
    simp [isEmpty, hne]

/-! ## Calls -/

@[simp] theorem stub_push (q : Queue) (l : Links) (n : Address) :
    (q.push l n).1.stub = q.stub := rfl

@[simp] theorem size_push (q : Queue) (l : Links) (n : Address) :
    (q.push l n).2.size = l.size := by
  simp [push]

/-- Appending a node changes its link and that of the tail. -/
theorem get_push_of_ne (q : Queue) (l : Links) {n m : Address} (hn : m ≠ n) (ht : m ≠ q.tail) :
    (q.push l n).2.get m = l.get m := by
  rw [push, Links.get_set, if_neg (fun h => ht h.1), Links.get_set, if_neg (fun h => hn h.1)]

/-- A node that is not in the queue is put behind all others. -/
theorem push_of_holds (h : q.Holds l nodes) (hn : n ∉ q.stub :: nodes) (hsize : n < l.size) :
    (q.push l n).1.Holds (q.push l n).2 (nodes ++ [n]) where
  chained := by
    have htail : q.tail < l.size := h.bounded _ (tail_mem_of_holds h)
    rcases h.chained with ⟨hhead, hpath⟩ | ⟨rest, rfl, hpath⟩
    · exact Or.inl ⟨hhead, chained_snoc hpath h.nodup hn hsize htail⟩
    · refine Or.inr ⟨rest ++ [n], rfl, ?_⟩
      exact chained_snoc hpath (List.nodup_cons.1 h.nodup).2 (List.not_mem_of_not_mem_cons hn)
        hsize htail
  nodup := by
    have happ : q.stub :: (nodes ++ [n]) = (q.stub :: nodes) ++ [n] := rfl
    rw [stub_push, happ, List.nodup_append]
    refine ⟨h.nodup, by simp, ?_⟩
    intro a ha b hb heq
    rw [List.mem_singleton.1 hb] at heq
    exact hn (heq ▸ ha)
  bounded := by
    intro m hm
    rw [stub_push, ← List.cons_append] at hm
    rw [size_push]
    rcases List.mem_append.1 hm with hm | hm
    · exact h.bounded m hm
    · rw [List.mem_singleton.1 hm]
      exact hsize

/-- Nothing is handed out of a queue without nodes. -/
theorem pop_of_holds_nil (h : q.Holds l []) : q.pop l = (.empty, q, l) := by
  rcases h.chained with ⟨hhead, htail, hget⟩ | ⟨rest, hnil, -⟩
  · simp [pop, hhead, hget, htail.symm]
  · cases hnil

/-- What is as it was after a queue with this stub handed out the node `n`. -/
structure HandedOut (stub : Address) (l : Links) (n : Address) (q' : Queue) (l' : Links) :
    Prop where
  stub_eq : q'.stub = stub
  size_eq : l'.size = l.size
  /-- Every link but those of the node and of the stub. -/
  get_eq : ∀ m, m ≠ n → m ≠ stub → l'.get m = l.get m

/-- Where the head is the oldest node it is handed out, behind the stub if it is the
last one. -/
theorem detachHead_of_chained (hpath : Chained l q.tail q.head rest)
    (hnodup : (q.stub :: q.head :: rest).Nodup)
    (hbound : ∀ m ∈ q.stub :: q.head :: rest, m < l.size) :
    ∃ q' l', q.detachHead l = (.node q.head, q', l') ∧ q'.Holds l' rest ∧
      HandedOut q.stub l q.head q' l' := by
  rcases List.nodup_cons.1 hnodup with ⟨hstub, hrest⟩
  have hne : q.stub ≠ q.head := List.ne_of_not_mem_cons hstub
  cases rest with
  | nil =>
      rcases hpath with ⟨htail, hget⟩
      have hlink : (q.push l q.stub).2.get q.head = some q.stub := by
        have hsize : q.head < l.size := hbound _ (by simp)
        rw [push, ← htail, Links.get_set, if_pos ⟨rfl, by simpa using hsize⟩]
      refine ⟨{ (q.push l q.stub).1 with head := q.stub }, (q.push l q.stub).2, ?_, ?_, ?_⟩
      · simp [detachHead, hget, htail.symm, hlink]
      · apply holds_new (by simpa using hbound q.stub List.mem_cons_self)
        have hsize : q.stub < l.size := hbound _ List.mem_cons_self
        rw [push, Links.get_set, if_neg (fun h => hne (h.1.trans htail.symm)), Links.get_set,
          if_pos ⟨rfl, hsize⟩]
      · refine ⟨rfl, size_push q l q.stub, ?_⟩
        intro m hhead hm
        exact get_push_of_ne q l hm (htail ▸ hhead)
  | cons next rest =>
      refine ⟨{ q with head := next }, l, by simp [detachHead, hpath.1], ?_, rfl, rfl,
        fun _ _ _ => rfl⟩
      exact {
        chained := Or.inr ⟨rest, rfl, hpath.2⟩
        nodup := List.nodup_cons.2
          ⟨List.not_mem_of_not_mem_cons hstub, (List.nodup_cons.1 hrest).2⟩
        bounded := by
          intro m hm
          apply hbound m
          rcases List.mem_cons.1 hm with rfl | hm
          · exact List.mem_cons_self
          · exact List.mem_cons_of_mem _ (List.mem_cons_of_mem _ hm) }

/-- The oldest node is handed out. -/
theorem pop_of_holds_cons (h : q.Holds l (n :: nodes)) :
    ∃ q' l', q.pop l = (.node n, q', l') ∧ q'.Holds l' nodes ∧
      HandedOut q.stub l n q' l' := by
  rcases h.chained with ⟨hhead, hget, hpath⟩ | ⟨rest, heq, hpath⟩
  · -- The consumer steps over the stub first.
    have hpop : q.pop l = ({ q with head := n } : Queue).detachHead l := by
      simp [pop, hhead, hget]
    rw [hpop]
    exact detachHead_of_chained (q := { q with head := n }) hpath h.nodup h.bounded
  · rcases List.cons.inj heq with ⟨rfl, rfl⟩
    have hne : q.head ≠ q.stub := by
      intro heq
      exact (List.nodup_cons.1 h.nodup).1 (heq ▸ List.mem_cons_self)
    rw [pop, if_neg hne]
    exact detachHead_of_chained hpath h.nodup h.bounded

/-! ## Walks -/

/-- The nodes that the links lead to from `node`, at most a number of them. -/
def walk (l : Links) : Nat → Address → List Address
  | 0, _ => []
  | steps + 1, node =>
    node ::
      match l.get node with
      | none => []
      | some next => walk l steps next

/-- The nodes in a queue, the oldest first. -/
def contents (q : Queue) (l : Links) : List Address :=
  (walk l l.size q.head).filter fun n => n ≠ q.stub

/-- A walk that is long enough finds all nodes of a path. -/
theorem walk_of_chained {steps : Nat} (h : Chained l tail node rest)
    (hsteps : rest.length < steps) : walk l steps node = node :: rest := by
  induction rest generalizing node steps with
  | nil =>
      cases steps with
      | zero => simp at hsteps
      | succ steps => simp [walk, h.2]
  | cons next rest ih =>
      cases steps with
      | zero => simp at hsteps
      | succ steps =>
          rw [List.length_cons] at hsteps
          simp only [walk, h.1]
          rw [ih h.2 (by omega)]

/-- A walk along the links finds the nodes. -/
theorem contents_of_holds (h : q.Holds l nodes) : q.contents l = nodes := by
  have hstub : q.stub ∉ nodes := (List.nodup_cons.1 h.nodup).1
  have hsub : q.stub :: nodes ⊆ List.range l.size := by
    intro m hm
    exact List.mem_range.2 (h.bounded m hm)
  have hlength := (List.subperm_of_subset h.nodup hsub).length_le
  rw [List.length_cons, List.length_range] at hlength
  have hfilter : nodes.filter (fun n => decide (n ≠ q.stub)) = nodes := by
    rw [List.filter_eq_self]
    intro n hn
    simp only [decide_eq_true_eq]
    rintro rfl
    exact hstub hn
  rw [contents]
  rcases h.chained with ⟨hhead, hpath⟩ | ⟨rest, rfl, hpath⟩
  · rw [hhead, walk_of_chained hpath (by omega), List.filter_cons_of_neg (by simp), hfilter]
  · rw [List.length_cons] at hlength
    rw [walk_of_chained hpath (by omega), hfilter]

end Queue

end EventLog
