import Mathlib.Data.List.Perm.Subperm
import EventLog.Transport.Pool

/-!
# The free stack of a pool

The free records of a pool are the records that its links lead to from the head.  This
module reads that path as a list, with the record on top first, and gives each
operation of the pool as an operation on the list.

Main results:

- `Pool.isStack_new`: in a new pool all records are free, the first one on top.
- `Pool.acquire_of_isStack_nil` and `Pool.acquire_of_isStack_cons`: acquiring takes the
  record on top, and nothing exactly when no record is free.
- `Pool.release_of_isStack`: releasing a record that is not free puts it on top.
- `Pool.freeList_of_isStack`: a walk along the links finds the free records.
-/

namespace EventLog

namespace Pool

/-! ## Paths along links -/

/-- The links lead from `link` through the listed records to the bottom of the stack. -/
def Threaded (links : Array UInt32) : UInt32 → List Nat → Prop
  | link, [] => link = 0
  | link, i :: free => link = linkTo i ∧ ∃ next, links[i]? = some next ∧ Threaded links next free

/-- The link of a record that is not on the path does not matter. -/
theorem threaded_setIfInBounds {links : Array UInt32} {i : Nat} (next : UInt32)
    {link : UInt32} {free : List Nat} (hi : i ∉ free) (h : Threaded links link free) :
    Threaded (links.setIfInBounds i next) link free := by
  induction free generalizing link with
  | nil => exact h
  | cons j free ih =>
      rcases h with ⟨hlink, below, hbelow, hrest⟩
      refine ⟨hlink, below, ?_, ih (List.not_mem_of_not_mem_cons hi) hrest⟩
      rw [Array.getElem?_setIfInBounds_ne (List.ne_of_not_mem_cons hi)]
      exact hbelow

/-! ## The stack -/

/-- The free records of a pool, the one on top first. -/
structure IsStack (p : Pool) (free : List Nat) : Prop where
  /-- The links thread the free records. -/
  threaded : Threaded p.links p.head.link free
  /-- No record is free twice. -/
  nodup : free.Nodup
  /-- They are records of the pool. -/
  bounded : ∀ i ∈ free, i < p.capacity
  /-- The counter counts them. -/
  balance : p.balance = free.length
  /-- Every record has a link of its own. -/
  supported : p.capacity ≤ maxPoolCapacity

variable {p : Pool} {free : List Nat} {i : Nat}

/-- The counter shows the number of free records. -/
theorem available_of_isStack (h : p.IsStack free) : p.available = free.length := by
  rw [available, h.balance, Int.toNat_natCast]

/-- A record that is put on top of the stack is on top of it. -/
theorem isStack_pushFree (h : p.IsStack free) (hi : i < p.capacity) (hfree : i ∉ free) :
    (p.pushFree i).IsStack (i :: free) where
  threaded := by
    refine ⟨rfl, p.head.link, ?_, threaded_setIfInBounds _ hfree h.threaded⟩
    exact Array.getElem?_setIfInBounds_self_of_lt hi
  nodup := List.nodup_cons.2 ⟨hfree, h.nodup⟩
  bounded := by
    intro j hj
    rw [capacity_pushFree]
    rcases List.mem_cons.1 hj with rfl | hj
    · exact hi
    · exact h.bounded j hj
  balance := by
    have hbalance := h.balance
    simp only [pushFree, List.length_cons]
    omega
  supported := by
    rw [capacity_pushFree]
    exact h.supported

/-- No record is free exactly if the head links to none. -/
theorem isExhausted_iff_of_isStack (h : p.IsStack free) : p.isExhausted = true ↔ free = [] := by
  rw [isExhausted, decide_eq_true_iff]
  cases hfree : free with
  | nil =>
      have hlink : p.head.link = 0 := by simpa [hfree, Threaded] using h.threaded
      simp [hlink]
  | cons i rest =>
      subst hfree
      have hi : i < p.capacity := h.bounded i List.mem_cons_self
      have htarget := target?_linkTo (Nat.lt_of_lt_of_le hi h.supported)
      rw [← h.threaded.1] at htarget
      have hlink : p.head.link ≠ 0 := by
        intro hzero
        simp [target?, hzero] at htarget
      simp [hlink]

/-- Before any record was put on it the stack is empty. -/
theorem isStack_blank {number capacity : Nat} (h : capacity ≤ maxPoolCapacity) :
    (blank number capacity).IsStack [] where
  threaded := rfl
  nodup := List.nodup_nil
  bounded := by simp
  balance := rfl
  supported := by simpa [blank, Pool.capacity] using h

/-- Putting records on a blank stack in reverse order lists them in order. -/
theorem isStack_foldr_pushFree {number capacity : Nat} (hsize : capacity ≤ maxPoolCapacity)
    {indices : List Nat} (hnodup : indices.Nodup) (hbound : ∀ i ∈ indices, i < capacity) :
    let p := indices.foldr (fun i p => p.pushFree i) (blank number capacity)
    p.IsStack indices ∧ p.capacity = capacity := by
  induction indices with
  | nil => exact ⟨isStack_blank hsize, by simp [blank, Pool.capacity]⟩
  | cons i indices ih =>
      rcases List.nodup_cons.1 hnodup with ⟨hi, hrest⟩
      rcases ih hrest fun j hj => hbound j (List.mem_cons_of_mem i hj) with ⟨hstack, hcapacity⟩
      have hlt : i < capacity := hbound i List.mem_cons_self
      refine ⟨isStack_pushFree hstack (hcapacity.symm ▸ hlt) hi, ?_⟩
      rw [List.foldr_cons, capacity_pushFree]
      exact hcapacity

/-- In a new pool all records are free, the first one on top. -/
theorem isStack_new {number capacity : Nat} (h : new number capacity = .ok p) :
    p.IsStack (List.range capacity) ∧ p.capacity = capacity := by
  unfold new at h
  split at h
  · cases h
  · rename_i hsize
    cases h
    exact isStack_foldr_pushFree (Nat.le_of_not_lt hsize) List.nodup_range
      fun i hi => List.mem_range.1 hi

/-- A pool is made exactly if its records can be numbered. -/
theorem new_eq_ok_iff {number capacity : Nat} :
    (∃ p, new number capacity = .ok p) ↔ capacity ≤ maxPoolCapacity := by
  unfold new
  split
  · simp
    omega
  · simp
    omega

/-! ## Operations on the stack -/

/-- Nothing is acquired from an empty stack. -/
theorem acquire_of_isStack_nil (h : p.IsStack []) : p.acquire = .ok (none, p) := by
  have hlink : p.head.link = 0 := h.threaded
  simp [acquire, target?, hlink]

/-- Acquiring takes the record on top. -/
theorem acquire_of_isStack_cons (h : p.IsStack (i :: free)) :
    ∃ q, p.acquire = .ok (some i, q) ∧ q.IsStack free ∧ q.capacity = p.capacity := by
  rcases h.threaded with ⟨hlink, next, hnext, hrest⟩
  have hi : i < p.capacity := h.bounded i List.mem_cons_self
  have htarget : target? p.head.link = some i := by
    rw [hlink]
    exact target?_linkTo (Nat.lt_of_lt_of_le hi h.supported)
  let q : Pool := { p with head := p.head.moveTo next, balance := p.balance - 1 }
  refine ⟨q, by simp [acquire, htarget, hnext, q], ?_, rfl⟩
  exact {
    threaded := hrest
    nodup := (List.nodup_cons.1 h.nodup).2
    bounded := fun j hj => h.bounded j (List.mem_cons_of_mem i hj)
    balance := by
      have hbalance := h.balance
      rw [List.length_cons] at hbalance
      simp only [q]
      omega
    supported := h.supported }

/-- Releasing a record that is not free puts it on top. -/
theorem release_of_isStack (h : p.IsStack free) (hi : i < p.capacity) (hfree : i ∉ free) :
    ∃ q, p.release (p.record i) = .ok q ∧ q.IsStack (i :: free) ∧ q.capacity = p.capacity := by
  have hsmall : i < UInt32.size := by
    have hsupported := h.supported
    unfold maxPoolCapacity at hsupported
    omega
  have hindex : (p.record i).index.toNat = i := UInt32.toNat_ofNat_of_lt' hsmall
  refine ⟨p.pushFree i, ?_, isStack_pushFree h hi hfree, capacity_pushFree p i⟩
  rw [release, hindex, if_pos ⟨rfl, hindex.symm ▸ hi⟩]

/-! ## Walks -/

/-- The records that the links lead to from `link`, at most a number of them. -/
def walk (links : Array UInt32) : Nat → UInt32 → List Nat
  | 0, _ => []
  | steps + 1, link =>
    match target? link with
    | none => []
    | some i =>
      i ::
        match links[i]? with
        | none => []
        | some next => walk links steps next

/-- The free records, the one on top first. -/
def freeList (p : Pool) : List Nat := walk p.links p.capacity p.head.link

/-- A walk that is long enough finds all records of a stack. -/
theorem walk_of_threaded {links : Array UInt32} {link : UInt32} {steps : Nat}
    (h : Threaded links link free) (hbound : ∀ i ∈ free, i < maxPoolCapacity)
    (hsteps : free.length ≤ steps) : walk links steps link = free := by
  induction free generalizing link steps with
  | nil =>
      have hlink : link = 0 := h
      cases steps with
      | zero => rfl
      | succ steps => simp [walk, target?, hlink]
  | cons i free ih =>
      rcases h with ⟨hlink, next, hnext, hrest⟩
      have htarget : target? link = some i := by
        rw [hlink]
        exact target?_linkTo (hbound i List.mem_cons_self)
      have hbelow : ∀ j ∈ free, j < maxPoolCapacity := by
        intro j hj
        exact hbound j (List.mem_cons_of_mem i hj)
      cases steps with
      | zero => simp at hsteps
      | succ steps =>
          rw [List.length_cons] at hsteps
          simp only [walk, htarget, hnext]
          rw [ih hrest hbelow (by omega)]

/-- A walk along the links finds the free records. -/
theorem freeList_of_isStack (h : p.IsStack free) : p.freeList = free := by
  apply walk_of_threaded h.threaded
  · intro i hi
    exact Nat.lt_of_lt_of_le (h.bounded i hi) h.supported
  · have hsub : free ⊆ List.range p.capacity := by
      intro i hi
      exact List.mem_range.2 (h.bounded i hi)
    simpa using (List.subperm_of_subset h.nodup hsub).length_le

end Pool

end EventLog
