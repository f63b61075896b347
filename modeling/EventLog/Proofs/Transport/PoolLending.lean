import EventLog.Proofs.Transport.PoolStack

/-!
# Pools as stacks of records

A pool hands out records, and a caller gives back records that it was handed out.  To
such a caller the pool is a stack of record numbers: what was given back last is handed
out first, and at the beginning the records come in the order of their numbers.

The pool counts the changes of its head in a word that starts again from zero.  Nothing
below depends on that word, so the number of calls is not bounded.

Main results:

- `Pool.Lender.holds_call`: a call of the pool is the call of its stack.
- `Pool.lends_run`: a run of calls gives the answers of a stack, and after it every record
  is either free or out.
-/

namespace EventLog

namespace Pool

/-! ## Calls -/

/-- A call of a pool. -/
inductive Call where
  | acquire
  /-- The record with this index is given back. -/
  | release (index : Nat)
  deriving DecidableEq, Repr

/-- What a call comes back with. -/
inductive Answer where
  | record (index : Nat)
  /-- No record is free. -/
  | exhausted
  | released
  deriving DecidableEq, Repr

/-- A pool, and the records that it handed out and that were not given back since. -/
structure Lender where
  pool : Pool
  out : List Nat := []

namespace Lender

/-- One call. -/
def call (s : Lender) : Call → Except Panic (Answer × Lender)
  | .acquire =>
    match s.pool.acquire with
    | .error p => .error p
    | .ok (none, pool) => .ok (.exhausted, { s with pool })
    | .ok (some index, pool) => .ok (.record index, ⟨pool, index :: s.out⟩)
  | .release index =>
    match s.pool.release (s.pool.record index) with
    | .error p => .error p
    | .ok pool => .ok (.released, ⟨pool, s.out.erase index⟩)

/-- Calls in order, up to the first that does not return. -/
def run : Lender → List Call → Except Panic (List Answer × Lender)
  | s, [] => .ok ([], s)
  | s, c :: calls =>
    match s.call c with
    | .error p => .error p
    | .ok (answer, t) =>
      match t.run calls with
      | .error p => .error p
      | .ok (answers, u) => .ok (answer :: answers, u)

/-- Only records that are out are given back. -/
def Keeps : Lender → List Call → Prop
  | _, [] => True
  | s, c :: calls =>
    (∀ index, c = .release index → index ∈ s.out) ∧
      match s.call c with
      | .error _ => True
      | .ok (_, t) => t.Keeps calls

end Lender

/-! ## Stacks -/

/-- A call of a stack of record numbers. -/
def Call.onStack : Call → List Nat → Answer × List Nat
  | .acquire, [] => (.exhausted, [])
  | .acquire, i :: free => (.record i, free)
  | .release i, free => (.released, i :: free)

/-- Calls of a stack in order. -/
def stackRun : List Call → List Nat → List Answer × List Nat
  | [], free => ([], free)
  | c :: calls, free =>
    let (answer, free) := c.onStack free
    let (answers, free) := stackRun calls free
    (answer :: answers, free)

namespace Lender

/-! ## Single calls -/

/-- A pool has these free records, and its other records are out. -/
structure Holds (s : Lender) (capacity : Nat) (free : List Nat) : Prop where
  stack : s.pool.IsStack free
  capacity_eq : s.pool.capacity = capacity
  /-- Every record is free or out, and once. -/
  places : (free ++ s.out).Perm (List.range capacity)

variable {s : Lender} {capacity : Nat} {free : List Nat} {i : Nat}

/-- A record that is out is not free. -/
theorem not_mem_free_of_out (h : s.Holds capacity free) (hi : i ∈ s.out) : i ∉ free := by
  have hnodup : (free ++ s.out).Nodup := h.places.nodup_iff.2 List.nodup_range
  intro hfree
  exact (List.nodup_append.1 hnodup).2.2 i hfree i hi rfl

/-- All records are out exactly if none is free. -/
theorem free_eq_nil_iff (h : s.Holds capacity free) : free = [] ↔ ∀ i < capacity, i ∈ s.out := by
  constructor
  · rintro rfl i hi
    exact h.places.mem_iff.2 (List.mem_range.2 hi)
  · intro hout
    rw [List.eq_nil_iff_forall_not_mem]
    intro i hfree
    have hi : i < capacity :=
      List.mem_range.1 (h.places.mem_iff.1 (List.mem_append_left _ hfree))
    exact not_mem_free_of_out h (hout i hi) hfree

/-- A call of the pool is the call of its stack. -/
theorem holds_call (h : s.Holds capacity free) (c : Call)
    (hdue : ∀ index, c = .release index → index ∈ s.out) :
    ∃ t, s.call c = .ok ((c.onStack free).1, t) ∧ t.Holds capacity (c.onStack free).2 := by
  cases c with
  | acquire =>
      cases free with
      | nil =>
          refine ⟨s, ?_, h⟩
          rw [call, acquire_of_isStack_nil h.stack]
          rfl
      | cons i free =>
          rcases acquire_of_isStack_cons h.stack with ⟨pool, hacquire, hstack, hcapacity⟩
          refine ⟨⟨pool, i :: s.out⟩, ?_, hstack, hcapacity.trans h.capacity_eq, ?_⟩
          · rw [call, hacquire]
            rfl
          · exact List.perm_middle.trans h.places
  | release i =>
      have hout : i ∈ s.out := hdue i rfl
      have hmem : i ∈ free ++ s.out := List.mem_append_right _ hout
      have hi : i < s.pool.capacity := by
        rw [h.capacity_eq]
        exact List.mem_range.1 (h.places.mem_iff.1 hmem)
      rcases release_of_isStack h.stack hi (not_mem_free_of_out h hout) with
        ⟨pool, hrelease, hstack, hcapacity⟩
      refine ⟨⟨pool, s.out.erase i⟩, ?_, hstack, hcapacity.trans h.capacity_eq, ?_⟩
      · rw [call, hrelease]
        rfl
      · have hback : (i :: s.out.erase i).Perm s.out := (List.perm_cons_erase hout).symm
        exact (List.perm_middle.symm.trans (hback.append_left free)).trans h.places

/-- Every call but one that finds no record changes the head. -/
theorem version_call {c : Call} {answer : Answer} {t : Lender} (h : s.call c = .ok (answer, t)) :
    t.pool.head.version =
      s.pool.head.version + UInt32.ofNat ([answer].countP (· ≠ .exhausted)) := by
  cases c with
  | acquire =>
      unfold call Pool.acquire at h
      cases htarget : target? s.pool.head.link with
      | none =>
          simp only [htarget, Except.ok.injEq, Prod.mk.injEq] at h
          rcases h with ⟨rfl, rfl⟩
          simp
      | some i =>
          cases hnext : s.pool.links[i]? with
          | none => simp [htarget, hnext] at h
          | some next =>
              simp only [htarget, hnext, Except.ok.injEq, Prod.mk.injEq] at h
              rcases h with ⟨rfl, rfl⟩
              rfl
  | release i =>
      unfold call Pool.release at h
      by_cases howns : s.pool.Owns (s.pool.record i)
      · simp only [howns, if_true, Except.ok.injEq, Prod.mk.injEq] at h
        rcases h with ⟨rfl, rfl⟩
        rfl
      · simp [howns] at h

/-! ## Runs -/

/-- Calls of the pool are the calls of its stack. -/
theorem holds_run {calls : List Call} (h : s.Holds capacity free) (hkeeps : s.Keeps calls) :
    ∃ t, s.run calls = .ok ((stackRun calls free).1, t) ∧
      t.Holds capacity (stackRun calls free).2 ∧
      t.pool.head.version = s.pool.head.version +
        UInt32.ofNat ((stackRun calls free).1.countP (· ≠ .exhausted)) := by
  induction calls generalizing s free with
  | nil => exact ⟨s, rfl, h, by simp [stackRun]⟩
  | cons c calls ih =>
      rcases hkeeps with ⟨hdue, hrest⟩
      rcases holds_call h c hdue with ⟨t, hcall, ht⟩
      rw [hcall] at hrest
      rcases ih ht hrest with ⟨u, hrun, hu, hversion⟩
      refine ⟨u, ?_, hu, ?_⟩
      · rw [run, hcall]
        simp only [hrun]
        rfl
      · rw [hversion, version_call hcall, UInt32.add_assoc, ← UInt32.ofNat_add,
          ← List.countP_append]
        rfl

end Lender

/-! ## Pools in use -/

/-- What a caller can rely on at any time. -/
structure Lender.Reliable (s : Lender) (capacity : Nat) : Prop where
  /-- Every record is free or out, and once. -/
  places : (s.pool.freeList ++ s.out).Perm (List.range capacity)
  /-- The record on top is handed out. -/
  acquire_top : ∃ q, s.pool.acquire = .ok (s.pool.freeList.head?, q)
  /-- None is handed out exactly if all are out. -/
  acquire_none_iff : (∃ q, s.pool.acquire = .ok (none, q)) ↔ ∀ i < capacity, i ∈ s.out
  /-- A record that is out is not handed out. -/
  acquire_fresh : ∀ i q, s.pool.acquire = .ok (some i, q) → i ∉ s.out
  /-- The counter shows the number of free records. -/
  available : s.pool.available = s.pool.freeList.length
  isExhausted_iff : s.pool.isExhausted = true ↔ s.pool.freeList.length = 0

/-- A pool that is a stack is reliable. -/
theorem Lender.reliable_of_holds {s : Lender} {capacity : Nat} {free : List Nat}
    (h : s.Holds capacity free) : s.Reliable capacity := by
  have hfree : s.pool.freeList = free := freeList_of_isStack h.stack
  have htop : ∃ q, s.pool.acquire = .ok (free.head?, q) := by
    cases free with
    | nil => exact ⟨s.pool, acquire_of_isStack_nil h.stack⟩
    | cons i free =>
        rcases acquire_of_isStack_cons h.stack with ⟨q, hacquire, -, -⟩
        exact ⟨q, hacquire⟩
  rcases htop with ⟨q, hq⟩
  exact {
    places := by
      rw [hfree]
      exact h.places
    acquire_top := ⟨q, by rw [hq, hfree]⟩
    acquire_none_iff := by
      rw [← free_eq_nil_iff h, hq]
      simp
    acquire_fresh := by
      intro i r hr hout
      rw [hq, Except.ok.injEq, Prod.mk.injEq] at hr
      exact not_mem_free_of_out h hout (List.mem_of_head? hr.1)
    available := by
      rw [hfree]
      exact available_of_isStack h.stack
    isExhausted_iff := by
      rw [hfree, List.length_eq_zero_iff]
      exact isExhausted_iff_of_isStack h.stack }

/-- A new pool of supported size has its records on a stack, the first one on top.  As long as
only records that are out are given back, calls of the pool return, with the answers of that
stack; however often the version of the head has started again, every record is then free or
out, and a caller can rely on the pool. -/
theorem lends_run {number capacity : Nat} (hsize : capacity ≤ maxPoolCapacity) :
    ∃ p, Pool.new number capacity = .ok p ∧ p.freeList = List.range capacity ∧
      ∀ calls, Lender.Keeps ⟨p, []⟩ calls →
        ∃ answers s, Lender.run ⟨p, []⟩ calls = .ok (answers, s) ∧
          stackRun calls (List.range capacity) = (answers, s.pool.freeList) ∧
          s.Reliable capacity ∧
          s.pool.head.version = p.head.version +
            UInt32.ofNat (answers.countP (· ≠ .exhausted)) := by
  rcases new_eq_ok_iff.2 hsize with ⟨p, hnew⟩
  rcases isStack_new hnew with ⟨hstack, hcapacity⟩
  refine ⟨p, hnew, freeList_of_isStack hstack, ?_⟩
  intro calls hkeeps
  have hholds : Lender.Holds ⟨p, []⟩ capacity (List.range capacity) :=
    ⟨hstack, hcapacity, by simp⟩
  rcases Lender.holds_run hholds hkeeps with ⟨s, hrun, hs, hversion⟩
  refine ⟨_, s, hrun, ?_, Lender.reliable_of_holds hs, hversion⟩
  rw [freeList_of_isStack hs.stack]

/-- Two records are taken and asked for once more, and given back out of order. -/
def twoRecords : List Call :=
  [.acquire, .acquire, .acquire, .release 0, .release 1, .acquire]

theorem lends_run_twoRecords :
    ∃ p, Pool.new 0 2 = .ok p ∧ Lender.Keeps ⟨p, []⟩ twoRecords ∧
      ∃ s, Lender.run ⟨p, []⟩ twoRecords =
          .ok ([.record 0, .record 1, .exhausted, .released, .released, .record 1], s) ∧
        s.pool.freeList = [0] ∧ s.Reliable 2 := by
  have hnew : Pool.new 0 2 = .ok ⟨0, #[2, 0], ⟨2, 1⟩, 2⟩ := rfl
  rcases @lends_run 0 2 (by decide) with ⟨p, hp, -, hruns⟩
  rw [hnew, Except.ok.injEq] at hp
  subst hp
  have hkeeps : Lender.Keeps ⟨⟨0, #[2, 0], ⟨2, 1⟩, 2⟩, []⟩ twoRecords := by
    refine ⟨by simp, by simp, by simp, ?_, ?_, by simp, trivial⟩
    · intro i hi
      cases hi
      exact List.mem_cons_of_mem 1 List.mem_cons_self
    · intro i hi
      cases hi
      exact List.mem_cons_self
  rcases hruns twoRecords hkeeps with ⟨answers, s, hrun, hstack, hreliable, -⟩
  have hanswers : [.record 0, .record 1, .exhausted, .released, .released, .record 1] = answers :=
    congrArg Prod.fst hstack
  subst hanswers
  exact ⟨_, hnew, hkeeps, s, hrun, (congrArg Prod.snd hstack).symm, hreliable⟩

end Pool

end EventLog
