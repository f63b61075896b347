import Mathlib.Logic.Function.Basic
import EventLog.Proofs.Transport.PopSteps

/-!
# Families of queues

Several queues can be threaded through the same nodes, as long as a node is pushed only
while it is in none of them.  Each of them is then a list of its own: the links that one
queue changes are those of its own nodes and of its stub, and a node that was popped brings
nothing with it but a link that the next push clears.

Main results:

- `QueueFamily.holds_call`: a call of a queue is the call of its list and leaves the other
  queues alone.
- `QueueFamily.isFifo_run`: a run of calls gives the answers of separate lists.
-/

namespace EventLog

/-- A number of queues over the same nodes. -/
structure QueueFamily (count : Nat) where
  links : Links
  queue : Fin count → Queue
  /-- The nodes that were pushed and not popped since. -/
  inside : List Address := []

namespace QueueFamily

variable {count : Nat}

/-! ## Calls -/

/-- Empty queues over a number of nodes; the stubs come after the nodes. -/
def new (nodes count : Nat) : QueueFamily count :=
  { links := .blank (nodes + count), queue := fun k => .new (nodes + k) }

/-- A call of one of the queues. -/
inductive Call (count : Nat) where
  | push (k : Fin count) (node : Address)
  | pop (k : Fin count)
  | isEmpty (k : Fin count)
  deriving DecidableEq, Repr

/-- What a call comes back with. -/
inductive Answer where
  | pushed
  | popped (what : Popped)
  | isEmpty (answer : Bool)
  deriving DecidableEq, Repr

/-- What is left of a list of nodes after a pop. -/
def without (inside : List Address) : Popped → List Address
  | .node n => inside.erase n
  | _ => inside

/-- One call. -/
def call (f : QueueFamily count) : Call count → Answer × QueueFamily count
  | .push k node =>
    let (queue, links) := (f.queue k).push f.links node
    (.pushed, ⟨links, Function.update f.queue k queue, node :: f.inside⟩)
  | .pop k =>
    let (what, queue, links) := (f.queue k).pop f.links
    (.popped what, ⟨links, Function.update f.queue k queue, without f.inside what⟩)
  | .isEmpty k => (.isEmpty ((f.queue k).isEmpty f.links), f)

/-- Calls in order. -/
def run (f : QueueFamily count) : List (Call count) → List Answer × QueueFamily count
  | [] => ([], f)
  | c :: calls =>
    let (answer, f) := f.call c
    let (answers, f) := f.run calls
    (answer :: answers, f)

/-- Only nodes that are in no queue are pushed. -/
def Keeps (nodes : Nat) (f : QueueFamily count) : List (Call count) → Prop
  | [] => True
  | c :: calls =>
    (∀ k node, c = .push k node → node < nodes ∧ node ∉ f.inside) ∧ (f.call c).2.Keeps nodes calls

/-! ## Lists -/

/-- A call of one of a number of lists. -/
def Call.onLists (lists : Fin count → List Address) :
    Call count → Answer × (Fin count → List Address)
  | .push k node => (.pushed, Function.update lists k (lists k ++ [node]))
  | .pop k =>
    match lists k with
    | [] => (.popped .empty, lists)
    | n :: rest => (.popped (.node n), Function.update lists k rest)
  | .isEmpty k => (.isEmpty (lists k).isEmpty, lists)

/-- Calls of lists in order. -/
def listRun (lists : Fin count → List Address) :
    List (Call count) → List Answer × (Fin count → List Address)
  | [] => ([], lists)
  | c :: calls =>
    let (answer, lists) := c.onLists lists
    let (answers, lists) := listRun lists calls
    (answer :: answers, lists)

/-- The nodes that calls push to a queue, in order. -/
def pushedTo (k : Fin count) (calls : List (Call count)) : List Address :=
  calls.filterMap fun
    | .push j node => if j = k then some node else none
    | _ => none

/-- The nodes that calls with these answers pop from a queue, in order. -/
def poppedFrom (k : Fin count) (answered : List (Call count × Answer)) : List Address :=
  answered.filterMap fun
    | (.pop j, .popped (.node n)) => if j = k then some n else none
    | _ => none

/-- What is pushed to a list comes out of it in order. -/
theorem pushedTo_eq (k : Fin count) (calls : List (Call count))
    (lists : Fin count → List Address) :
    lists k ++ pushedTo k calls =
      poppedFrom k (calls.zip (listRun lists calls).1) ++ (listRun lists calls).2 k := by
  induction calls generalizing lists with
  | nil => simp [pushedTo, poppedFrom, listRun]
  | cons c calls ih =>
      have hrest := ih (c.onLists lists).2
      cases c with
      | push j node =>
          by_cases hj : j = k
          · subst hj
            simpa [pushedTo, poppedFrom, listRun, Call.onLists] using hrest
          · simpa [pushedTo, poppedFrom, listRun, Call.onLists, hj, Ne.symm hj] using hrest
      | pop j =>
          cases hlist : lists j with
          | nil =>
              rw [Call.onLists, hlist] at hrest
              simpa [pushedTo, poppedFrom, listRun, Call.onLists, hlist] using hrest
          | cons n rest =>
              rw [Call.onLists, hlist] at hrest
              by_cases hj : j = k
              · subst hj
                simpa [pushedTo, poppedFrom, listRun, Call.onLists, hlist] using hrest
              · simpa [pushedTo, poppedFrom, listRun, Call.onLists, hlist, hj, Ne.symm hj]
                  using hrest
      | isEmpty j => simpa [pushedTo, poppedFrom, listRun, Call.onLists] using hrest

/-! ## Queues as lists -/

/-- The nodes in each queue of a family. -/
structure Holds (f : QueueFamily count) (nodes : Nat) (lists : Fin count → List Address) :
    Prop where
  queue : ∀ k, (f.queue k).Holds f.links (lists k)
  /-- Every queue has a stub of its own. -/
  stub : ∀ k, (f.queue k).stub = nodes + k
  size : f.links.size = nodes + count
  node_lt : ∀ k, ∀ n ∈ lists k, n < nodes
  /-- No node is in two queues. -/
  apart : ∀ j k n, n ∈ lists j → n ∈ lists k → j = k
  inside_nodup : f.inside.Nodup
  mem_inside : ∀ n, n ∈ f.inside ↔ ∃ k, n ∈ lists k

variable {f : QueueFamily count} {nodes : Nat} {lists : Fin count → List Address} {k : Fin count}

/-- No node in a queue is the stub of one. -/
theorem Holds.ne_stub (h : f.Holds nodes lists) {j : Fin count} {n : Address} (hn : n ∈ lists j) :
    n ≠ (f.queue k).stub := by
  intro heq
  have hlt := h.node_lt j n hn
  rw [heq, h.stub k] at hlt
  exact Nat.not_lt.2 (Nat.le_add_right nodes k) hlt

/-- Two queues have neither a node nor a stub in common. -/
theorem Holds.eq_of_mem_own (h : f.Holds nodes lists) {j : Fin count} {m : Address}
    (hj : m ∈ (f.queue j).stub :: lists j) (hk : m ∈ (f.queue k).stub :: lists k) : j = k := by
  rcases List.mem_cons.1 hj with rfl | hj
  · rcases List.mem_cons.1 hk with hk | hk
    · rw [h.stub j, h.stub k] at hk
      exact Fin.ext (Nat.add_left_cancel hk)
    · exact absurd rfl (h.ne_stub hk)
  · rcases List.mem_cons.1 hk with hk | hk
    · exact absurd hk (h.ne_stub hj)
    · exact h.apart j k m hj hk

theorem holds_new (nodes count : Nat) : (new nodes count).Holds nodes fun _ => [] where
  queue := by
    intro k
    apply Queue.holds_new
    · simp [new, Links.blank, Links.size]
    · simp [new, Links.blank, Links.get]
  stub := fun k => rfl
  size := by simp [new, Links.blank, Links.size]
  node_lt := by simp
  apart := by simp
  inside_nodup := List.nodup_nil
  mem_inside := by simp [new]

/-- A call of one queue that changes only links of that queue leaves the others alone. -/
theorem holds_update (h : f.Holds nodes lists) {queue : Queue} {links : Links}
    {list inside : List Address} (hqueue : queue.Holds links list)
    (hstub : queue.stub = (f.queue k).stub) (hsize : links.size = f.links.size)
    (hlinks : ∀ j, j ≠ k → ∀ m ∈ (f.queue j).stub :: lists j, links.get m = f.links.get m)
    (hlt : ∀ n ∈ list, n < nodes) (hapart : ∀ j, j ≠ k → ∀ n ∈ list, n ∉ lists j)
    (hnodup : inside.Nodup) (hmem : ∀ n, n ∈ inside ↔ n ∈ list ∨ ∃ j, j ≠ k ∧ n ∈ lists j) :
    Holds ⟨links, Function.update f.queue k queue, inside⟩ nodes
      (Function.update lists k list) where
  queue := by
    intro j
    by_cases hj : j = k
    · subst hj
      simpa using hqueue
    · simpa [hj] using Queue.holds_of_agrees (hlinks j hj) hsize (h.queue j)
  stub := by
    intro j
    by_cases hj : j = k
    · subst hj
      simpa using hstub.trans (h.stub j)
    · simpa [hj] using h.stub j
  size := hsize.trans h.size
  node_lt := by
    intro j n hn
    by_cases hj : j = k
    · subst hj
      exact hlt n (by simpa using hn)
    · exact h.node_lt j n (by simpa [hj] using hn)
  apart := by
    intro i j n hi hj
    by_cases hik : i = k
    · by_cases hjk : j = k
      · rw [hik, hjk]
      · subst hik
        exact absurd (by simpa [hjk] using hj) (hapart j hjk n (by simpa using hi))
    · by_cases hjk : j = k
      · subst hjk
        exact absurd (by simpa [hik] using hi) (hapart i hik n (by simpa using hj))
      · exact h.apart i j n (by simpa [hik] using hi) (by simpa [hjk] using hj)
  inside_nodup := hnodup
  mem_inside := by
    intro n
    rw [hmem]
    constructor
    · rintro (hn | ⟨j, hj, hn⟩)
      · exact ⟨k, by simpa using hn⟩
      · exact ⟨j, by simpa [hj] using hn⟩
    · rintro ⟨j, hn⟩
      by_cases hj : j = k
      · subst hj
        exact Or.inl (by simpa using hn)
      · exact Or.inr ⟨j, hj, by simpa [hj] using hn⟩

/-- A node that is in no queue is put behind all others of its queue. -/
theorem holds_push (h : f.Holds nodes lists) {n : Address} (hlt : n < nodes)
    (hout : n ∉ f.inside) :
    Holds ⟨((f.queue k).push f.links n).2, Function.update f.queue k ((f.queue k).push f.links n).1,
      n :: f.inside⟩ nodes (Function.update lists k (lists k ++ [n])) := by
  have hnone : ∀ j, n ∉ lists j := by
    intro j hn
    exact hout ((h.mem_inside n).2 ⟨j, hn⟩)
  have hstub : ∀ j, n ≠ (f.queue j).stub := by
    intro j heq
    rw [heq, h.stub j] at hlt
    exact Nat.not_lt.2 (Nat.le_add_right nodes j) hlt
  have hown : ∀ j, n ∉ (f.queue j).stub :: lists j := by
    intro j hn
    rcases List.mem_cons.1 hn with hn | hn
    · exact hstub j hn
    · exact hnone j hn
  have hsize : n < f.links.size := by
    rw [h.size]
    exact Nat.lt_add_right count hlt
  apply holds_update h (Queue.push_of_holds (h.queue k) (hown k) hsize) (Queue.stub_push _ _ _)
    (Queue.size_push _ _ _)
  · -- The tail, whose link is changed, belongs to the queue itself.
    intro j hj m hm
    apply Queue.get_push_of_ne
    · rintro rfl
      exact hown j hm
    · rintro rfl
      exact hj (h.eq_of_mem_own hm (Queue.tail_mem_of_holds (h.queue k)))
  · intro m hm
    rcases List.mem_append.1 hm with hm | hm
    · exact h.node_lt k m hm
    · rw [List.mem_singleton.1 hm]
      exact hlt
  · intro j hj m hm hmj
    rcases List.mem_append.1 hm with hm | hm
    · exact hj (h.apart j k m hmj hm)
    · rw [List.mem_singleton.1 hm] at hmj
      exact hnone j hmj
  · exact List.nodup_cons.2 ⟨hout, h.inside_nodup⟩
  · intro m
    rw [List.mem_cons, h.mem_inside, List.mem_append, List.mem_singleton]
    constructor
    · rintro (rfl | ⟨j, hj⟩)
      · exact Or.inl (Or.inr rfl)
      · by_cases hjk : j = k
        · subst hjk
          exact Or.inl (Or.inl hj)
        · exact Or.inr ⟨j, hjk, hj⟩
    · rintro ((hm | hm) | ⟨j, -, hj⟩)
      · exact Or.inr ⟨k, hm⟩
      · exact Or.inl hm
      · exact Or.inr ⟨j, hj⟩

/-- The oldest node of a queue is taken out of it. -/
theorem holds_pop (h : f.Holds nodes lists) {n : Address} {rest : List Address}
    (hlist : lists k = n :: rest) :
    ((f.queue k).pop f.links).1 = .node n ∧
      Holds ⟨((f.queue k).pop f.links).2.2,
        Function.update f.queue k ((f.queue k).pop f.links).2.1, f.inside.erase n⟩ nodes
        (Function.update lists k rest) := by
  have hmem : n ∈ lists k := hlist ▸ List.mem_cons_self
  have hsub : ∀ m ∈ rest, m ∈ lists k := by
    intro m hm
    exact hlist ▸ List.mem_cons_of_mem n hm
  have hrest : n ∉ rest := by
    have hnodup := (h.queue k).nodup
    rw [hlist] at hnodup
    exact (List.nodup_cons.1 (List.nodup_cons.1 hnodup).2).1
  have hqueue := h.queue k
  rw [hlist] at hqueue
  rcases Queue.pop_of_holds_cons hqueue with ⟨queue, links, hpop, hholds, hout⟩
  rw [hpop]
  refine ⟨rfl, ?_⟩
  apply holds_update h hholds hout.stub_eq hout.size_eq
  · -- Besides the node only the stub of the queue gets another link.
    intro j hj m hm
    apply hout.get_eq
    · rintro rfl
      exact hj (h.eq_of_mem_own hm (List.mem_cons_of_mem _ hmem))
    · rintro rfl
      exact hj (h.eq_of_mem_own hm List.mem_cons_self)
  · intro m hm
    exact h.node_lt k m (hsub m hm)
  · intro j hj m hm hmj
    exact hj (h.apart j k m hmj (hsub m hm))
  · exact h.inside_nodup.erase n
  · intro m
    rw [h.inside_nodup.mem_erase_iff, h.mem_inside]
    constructor
    · rintro ⟨hne, j, hj⟩
      by_cases hjk : j = k
      · subst hjk
        rw [hlist] at hj
        exact Or.inl ((List.mem_cons.1 hj).resolve_left hne)
      · exact Or.inr ⟨j, hjk, hj⟩
    · rintro (hm | ⟨j, hj, hm⟩)
      · exact ⟨fun heq => hrest (heq ▸ hm), k, hsub m hm⟩
      · refine ⟨?_, j, hm⟩
        rintro rfl
        exact hj (h.apart j k m hm hmem)

/-! ## Runs -/

/-- A call of a queue is the call of its list. -/
theorem holds_call (h : f.Holds nodes lists) (c : Call count)
    (hdue : ∀ k node, c = .push k node → node < nodes ∧ node ∉ f.inside) :
    (f.call c).1 = (c.onLists lists).1 ∧ (f.call c).2.Holds nodes (c.onLists lists).2 := by
  cases c with
  | push k n =>
      rcases hdue k n rfl with ⟨hlt, hout⟩
      exact ⟨rfl, holds_push h hlt hout⟩
  | pop k =>
      cases hlist : lists k with
      | nil =>
          have hqueue := h.queue k
          rw [hlist] at hqueue
          simp only [call, Call.onLists, hlist, Queue.pop_of_holds_nil hqueue, without,
            Function.update_eq_self]
          exact ⟨trivial, h⟩
      | cons n rest =>
          rcases holds_pop h hlist with ⟨hwhat, hholds⟩
          simp only [call, Call.onLists, hlist, hwhat, without]
          exact ⟨trivial, hholds⟩
  | isEmpty k => exact ⟨by rw [call, Call.onLists, Queue.isEmpty_of_holds (h.queue k)], h⟩

/-- A list hands out its own nodes only. -/
theorem popped_onLists {c : Call count} {what : Popped} (h : (c.onLists lists).1 = .popped what) :
    what = .empty ∨ ∃ k n, n ∈ lists k ∧ what = .node n := by
  cases c with
  | push k n => simp [Call.onLists] at h
  | isEmpty k => simp [Call.onLists] at h
  | pop k =>
      cases hlist : lists k with
      | nil =>
          simp only [Call.onLists, hlist, Answer.popped.injEq] at h
          exact Or.inl h.symm
      | cons n rest =>
          simp only [Call.onLists, hlist, Answer.popped.injEq] at h
          exact Or.inr ⟨k, n, hlist ▸ List.mem_cons_self, h.symm⟩

/-- Calls of the queues are the calls of their lists, and hand out nodes only. -/
theorem holds_run {calls : List (Call count)} (h : f.Holds nodes lists)
    (hkeeps : f.Keeps nodes calls) :
    (f.run calls).1 = (listRun lists calls).1 ∧
      (f.run calls).2.Holds nodes (listRun lists calls).2 ∧
      ∀ what, .popped what ∈ (f.run calls).1 → what = .empty ∨ ∃ n < nodes, what = .node n := by
  induction calls generalizing f lists with
  | nil => exact ⟨rfl, h, by simp [run]⟩
  | cons c calls ih =>
      rcases hkeeps with ⟨hdue, hrest⟩
      rcases holds_call h c hdue with ⟨hanswer, hcall⟩
      rcases ih hcall hrest with ⟨hanswers, hholds, hpopped⟩
      refine ⟨?_, hholds, ?_⟩
      · simp only [run, listRun, hanswer, hanswers]
      · intro what hwhat
        rcases List.mem_cons.1 hwhat with hfirst | hlater
        · rcases popped_onLists (hanswer.symm.trans hfirst.symm) with hempty | ⟨k, n, hn, hnode⟩
          · exact Or.inl hempty
          · exact Or.inr ⟨n, h.node_lt k n hn, hnode⟩
        · exact hpopped what hlater

/-! ## Families in use -/

/-- After calls with these answers every queue of a family is a first-in-first-out list. -/
structure IsFifo (f : QueueFamily count) (nodes : Nat) (calls : List (Call count))
    (answers : List Answer) : Prop where
  /-- The answers are those of separate lists. -/
  answers_eq : answers = (listRun (fun _ => []) calls).1
  /-- Every queue holds the nodes of its list. -/
  contents_eq : ∀ k, (f.queue k).contents f.links = (listRun (fun _ => []) calls).2 k
  /-- What was pushed to a queue was popped from it in order or is still in it. -/
  pushed_eq : ∀ k,
    pushedTo k calls = poppedFrom k (calls.zip answers) ++ (f.queue k).contents f.links
  /-- A node that was pushed and not popped since is in a queue. -/
  mem_inside : ∀ n, n ∈ f.inside ↔ ∃ k, n ∈ (f.queue k).contents f.links
  /-- No node is in two queues. -/
  apart : ∀ j k n, n ∈ (f.queue j).contents f.links → n ∈ (f.queue k).contents f.links → j = k
  /-- No node is in a queue twice. -/
  nodup : ∀ k, ((f.queue k).contents f.links).Nodup
  /-- A pop finds nothing or a node, and never a link missing. -/
  popped : ∀ what, .popped what ∈ answers → what = .empty ∨ ∃ n < nodes, what = .node n
  /-- The stubs are no nodes. -/
  stub : ∀ k, nodes ≤ (f.queue k).stub
  /-- A pop in atomic steps hands out the oldest node, and every wait ends at its first read. -/
  endsAlone : ∀ k, Queue.PopPhase.EndsAlone .start (f.queue k) f.links
    ((f.queue k).contents f.links).head? ((f.queue k).pop f.links).2.1
    ((f.queue k).pop f.links).2.2

/-- As long as only nodes that are in no queue are pushed, every queue of a family is a
first-in-first-out list of its own, whichever queue its nodes were in before. -/
theorem isFifo_run (nodes : Nat) (calls : List (Call count))
    (hkeeps : (new nodes count).Keeps nodes calls) :
    ((new nodes count).run calls).2.IsFifo nodes calls ((new nodes count).run calls).1 := by
  rcases holds_run (holds_new nodes count) hkeeps with ⟨hanswers, hholds, hpopped⟩
  have hcontents : ∀ k, (((new nodes count).run calls).2.queue k).contents
      ((new nodes count).run calls).2.links = (listRun (fun _ => []) calls).2 k := by
    intro k
    exact Queue.contents_of_holds (hholds.queue k)
  exact {
    answers_eq := hanswers
    contents_eq := hcontents
    pushed_eq := by
      intro k
      rw [hanswers, hcontents]
      exact pushedTo_eq k calls fun _ => []
    mem_inside := by
      intro n
      simpa only [hcontents] using hholds.mem_inside n
    apart := by
      intro j k n
      rw [hcontents, hcontents]
      exact hholds.apart j k n
    nodup := by
      intro k
      rw [hcontents]
      exact (List.nodup_cons.1 (hholds.queue k).nodup).2
    popped := hpopped
    stub := by
      intro k
      rw [hholds.stub k]
      exact Nat.le_add_right nodes k
    endsAlone := by
      intro k
      rw [hcontents]
      exact Queue.endsAlone_of_holds (hholds.queue k) }

/-- A node goes back into one queue, and over into another one, while its link is still the old
one. -/
def changingQueues : List (Call 2) :=
  [.push 0 0, .push 0 1, .pop 0, .push 0 0, .pop 0, .push 1 1, .isEmpty 0, .pop 0, .pop 0,
    .isEmpty 0, .pop 1, .pop 1]

theorem isFifo_run_changingQueues :
    (new 2 2).Keeps 2 changingQueues ∧
      ((new 2 2).run changingQueues).1 =
        [.pushed, .pushed, .popped (.node 0), .pushed, .popped (.node 1), .pushed, .isEmpty false,
          .popped (.node 0), .popped .empty, .isEmpty true, .popped (.node 1), .popped .empty] ∧
      ((new 2 2).run changingQueues).2.IsFifo 2 changingQueues
        ((new 2 2).run changingQueues).1 := by
  have hkeeps : (new 2 2).Keeps 2 changingQueues := by
    refine ⟨?_, ?_, ?_, ?_, ?_, ?_, ?_, ?_, ?_, ?_, ?_, ?_, trivial⟩
    all_goals
      intro k node hpush
      cases hpush
    · decide
    · decide
    · decide
    · decide
  exact ⟨hkeeps, rfl, isFifo_run 2 changingQueues hkeeps⟩

end QueueFamily

end EventLog
