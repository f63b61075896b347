import EventLog.Config

/-!
# Record pools

A pool has a fixed number of records.  The free ones form a stack that is threaded
through one link for each record: the head of the pool links to the record on top, and
each record on the stack to the one below it.  A link is a word, zero for no record and
otherwise one more than the record's index.  The head carries a version besides its
link, which every change of the head moves on.

A record can be released at any time, also while it lies on the stack; the pool then
links it again.

Main results:

- `Pool.target?_linkTo`: a link to a record of a pool of supported size leads to it.
- `Pool.capacity_acquire` and `Pool.capacity_release`: the number of records never
  changes.
-/

namespace EventLog

/-! ## Records -/

/-- A record, told from all others by the pool that it is from and its place there. -/
structure Record where
  /-- The number of its pool; a record made on its own has none. -/
  home : Option Nat
  index : UInt32
  deriving DecidableEq, Repr

namespace Record

/-- A record made on its own. -/
def detached : Record := ⟨none, UInt32.ofNat (UInt32.size - 1)⟩

/-- The shown form of a record. -/
def describe (r : Record) : String :=
  "Record \x7b index: " ++ toString r.index.toNat ++ ", .. \x7d"

end Record

/-! ## Links -/

/-- The head of a pool. -/
structure PoolHead where
  /-- Moved on by every change. -/
  version : UInt32
  /-- The link to the record on top. -/
  link : UInt32
  deriving DecidableEq, Repr, Inhabited

/-- The head after a change that makes it link to `link`. -/
def PoolHead.moveTo (h : PoolHead) (link : UInt32) : PoolHead :=
  ⟨h.version + 1, link⟩

/-- A fixed set of records, known by index. -/
structure Pool where
  /-- The number that tells this pool from others. -/
  number : Nat
  /-- The link of each record. -/
  links : Array UInt32
  head : PoolHead
  /-- Releases minus acquisitions. -/
  balance : Int
  deriving DecidableEq, Repr, Inhabited

namespace Pool

/-- The link to a record. -/
def linkTo (index : Nat) : UInt32 := UInt32.ofNat (index + 1)

/-- The record that a link leads to. -/
def target? (link : UInt32) : Option Nat :=
  if link = 0 then none else some (link.toNat - 1)

/-- A link to a record of a pool of supported size leads to it. -/
theorem target?_linkTo {index : Nat} (h : index < maxPoolCapacity) :
    target? (linkTo index) = some index := by
  have hbound : index + 1 < UInt32.size := by
    unfold maxPoolCapacity at h
    omega
  have hnat : (linkTo index).toNat = index + 1 := by
    rw [linkTo, UInt32.toNat_ofNat_of_lt' hbound]
  have hne : linkTo index ≠ 0 := by
    intro hzero
    rw [hzero] at hnat
    simp at hnat
  rw [target?, if_neg hne, hnat, Nat.add_sub_cancel]

/-! ## Operations -/

/-- The number of records. -/
def capacity (p : Pool) : Nat := p.links.size

/-- Puts the record with an index on top of the stack. -/
def pushFree (p : Pool) (index : Nat) : Pool :=
  { p with
    links := p.links.setIfInBounds index p.head.link
    head := p.head.moveTo (linkTo index)
    balance := p.balance + 1 }

/-- A pool of `capacity` records, none of them free yet. -/
def blank (number capacity : Nat) : Pool :=
  ⟨number, Array.replicate capacity 0, ⟨0, 0⟩, 0⟩

/-- A pool with all records free, the first one on top. -/
def new (number capacity : Nat) : Except Panic Pool :=
  if maxPoolCapacity < capacity then .error .poolTooLarge
  else .ok ((List.range capacity).foldr (fun index p => p.pushFree index) (blank number capacity))

/-- Takes the record on top, if there is one. -/
def acquire (p : Pool) : Except Panic (Option Nat × Pool) :=
  match target? p.head.link with
  | none => .ok (none, p)
  | some index =>
    match p.links[index]? with
    | none => .error .noSuchRecord
    | some next =>
      .ok (some index, { p with head := p.head.moveTo next, balance := p.balance - 1 })

/-- The record is one of this pool. -/
def Owns (p : Pool) (r : Record) : Prop :=
  r.home = some p.number ∧ r.index.toNat < p.capacity

instance (p : Pool) (r : Record) : Decidable (p.Owns r) :=
  inferInstanceAs (Decidable (_ ∧ _))

/-- Gives a record back.  Only a record of this pool is taken. -/
def release (p : Pool) (r : Record) : Except Panic Pool :=
  if p.Owns r then .ok (p.pushFree r.index.toNat) else .error .foreignRecord

/-- The record of this pool with an index. -/
def record (p : Pool) (index : Nat) : Record :=
  ⟨some p.number, UInt32.ofNat index⟩

/-- The number of free records, as the counter has it. -/
def available (p : Pool) : Nat := p.balance.toNat

/-- No record is free. -/
def isExhausted (p : Pool) : Bool := p.head.link = 0

/-- The shown form of a pool. -/
def describe (p : Pool) : String :=
  "RecordPool \x7b capacity: " ++ toString p.capacity ++ ", available: " ++
    toString p.available ++ " \x7d"

/-! ## The number of records -/

@[simp] theorem capacity_pushFree (p : Pool) (index : Nat) :
    (p.pushFree index).capacity = p.capacity := by
  simp [pushFree, capacity]

/-- Acquiring keeps the number of records. -/
theorem capacity_acquire {p q : Pool} {i : Option Nat} (h : p.acquire = .ok (i, q)) :
    q.capacity = p.capacity := by
  unfold acquire at h
  split at h
  · cases h
    rfl
  · split at h
    · cases h
    · cases h
      rfl

/-- Releasing keeps the number of records. -/
theorem capacity_release {p q : Pool} {r : Record} (h : p.release r = .ok q) :
    q.capacity = p.capacity := by
  unfold release at h
  split at h
  · cases h
    exact capacity_pushFree p _
  · cases h

end Pool

end EventLog
