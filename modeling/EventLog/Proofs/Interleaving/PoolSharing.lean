import Mathlib.Algebra.BigOperators.Group.List.Basic
import Mathlib.Algebra.Ring.Int.Defs
import EventLog.Interleaving.PoolThreads
import EventLog.Proofs.Transport.PoolStack

/-!
# Pools that threads share

A thread that takes a record follows the link that it read a while ago.  Until its exchange the
record may have been taken, relinked and put back by others, but then the head has changed in
between and so has its version.  As long as fewer changes lie between the two than there are
versions, an exchange that succeeds shows that nothing has changed at all.

So every record is at any time on the stack or with one thread, and the counter differs from the
height of the stack by the calls that still have to count.

Main results:

- `PoolThreads.Saw.readAt_eq`: a head that is found again has not changed in between.
- `PoolThreads.shares_acquire` and `PoolThreads.shares_release`: a step of a call keeps the
  records apart.
- `PoolThreads.Shares.handOver`: so does handing a record on from thread to thread.
-/

namespace EventLog

namespace PoolThreads

/-! ## What a call has and what it saw -/

namespace Activity

/-- The record that a call has taken and is to hand over yet. -/
def taken : Activity → List Nat
  | .acquiring (.count index) => [index]
  | _ => []

/-- The record that a call is to put back yet. -/
def returning : Activity → List Nat
  | .releasing (.readHead index) => [index]
  | .releasing (.writeLink index _) => [index]
  | .releasing (.exchange index _) => [index]
  | _ => []

/-- What a call is to take off the counter yet. -/
def uncounted : Activity → Int
  | .acquiring (.count _) => 1
  | .releasing .count => -1
  | _ => 0

/-- The call is about to compare the head with what it read. -/
def ComparesHead : Activity → Prop
  | .acquiring (.exchange _ _) => True
  | .releasing (.exchange _ _) => True
  | _ => False

end Activity

/-- The records that a thread has. -/
def Worker.records (w : Worker) : List Nat :=
  w.activity.taken ++ w.activity.returning ++ w.holds

/-- Fewer changes of the head than there are versions lie between the last read of it and an
exchange that is due. -/
def Worker.IsTimely (w : Worker) (changes : Nat) : Prop :=
  w.activity.ComparesHead → changes < w.readAt + UInt32.size

/-- The head as it was at the change `readAt`. -/
structure Saw (p : Pool) (first : UInt32) (changes readAt : Nat) (seen : PoolHead) : Prop where
  le : readAt ≤ changes
  version : seen.version = first + UInt32.ofNat readAt
  /-- Without a change since then it is the head still. -/
  current : readAt = changes → p.head = seen

/-- What a call knows from its reads and writes.  A release writes the link that its exchange
leaves behind itself, so it does not depend on what it read. -/
def Activity.Knows (p : Pool) (first : UInt32) (changes readAt : Nat) : Activity → Prop
  | .acquiring (.readLink seen) => Saw p first changes readAt seen ∧ seen.link ≠ 0
  | .acquiring (.exchange seen next) =>
    Saw p first changes readAt seen ∧ seen.link ≠ 0 ∧
      (readAt = changes → p.links[Pool.AcquirePhase.top seen]? = some next)
  | .acquiring (.done _) => False
  | .releasing (.exchange index seen) => p.links[index]? = some seen.link
  | _ => True

/-- A pool and its threads: every record is on the stack or with one thread. -/
structure Shares (p : Pool) (first : UInt32) (changes capacity : Nat) (free : List Nat)
    (threads : List Worker) : Prop where
  threaded : Pool.Threaded p.links p.head.link free
  capacity_eq : p.capacity = capacity
  supported : capacity ≤ maxPoolCapacity
  places : (free ++ threads.flatMap Worker.records).Perm (List.range capacity)
  version : p.head.version = first + UInt32.ofNat changes
  balance : p.balance = free.length + (threads.map fun w => w.activity.uncounted).sum
  knows : ∀ w ∈ threads, w.activity.Knows p first changes w.readAt

variable {p q : Pool} {first : UInt32} {changes capacity : Nat} {free : List Nat}
  {v v' w w' : Worker} {others threads threads' : List Worker}

/-! ## Records on the stack and with threads -/

theorem Shares.nodup (h : Shares p first changes capacity free threads) :
    (free ++ threads.flatMap Worker.records).Nodup :=
  h.places.nodup_iff.2 List.nodup_range

theorem Shares.lt_capacity (h : Shares p first changes capacity free threads) {i : Nat}
    (hi : i ∈ free ∨ i ∈ threads.flatMap Worker.records) : i < capacity :=
  List.mem_range.1 (h.places.mem_iff.1 (List.mem_append.2 hi))

/-- A record with a thread is not on the stack. -/
theorem Shares.not_mem_free (h : Shares p first changes capacity free threads) {i : Nat}
    (hi : i ∈ threads.flatMap Worker.records) : i ∉ free := by
  intro hfree
  exact (List.nodup_append.1 h.nodup).2.2 i hfree i hi rfl

/-- A link that leads nowhere is at the bottom of the stack. -/
theorem free_eq_nil_of_threaded (h : Shares p first changes capacity free threads)
    (hlink : p.head.link = 0) : free = [] := by
  cases hfree : free with
  | nil => rfl
  | cons i rest =>
      subst hfree
      have hi : i < maxPoolCapacity :=
        Nat.lt_of_lt_of_le (h.lt_capacity (Or.inl List.mem_cons_self)) h.supported
      have htarget := Pool.target?_linkTo hi
      rw [← h.threaded.1, hlink] at htarget
      simp [Pool.target?] at htarget

/-- A link that leads somewhere leads to the record on top. -/
theorem free_eq_cons_of_threaded (h : Shares p first changes capacity free threads)
    (hlink : p.head.link ≠ 0) :
    ∃ rest next, free = Pool.AcquirePhase.top p.head :: rest ∧
      p.links[Pool.AcquirePhase.top p.head]? = some next ∧ Pool.Threaded p.links next rest := by
  cases hfree : free with
  | nil =>
      subst hfree
      exact absurd h.threaded hlink
  | cons i rest =>
      subst hfree
      rcases h.threaded with ⟨hi, next, hnext, hrest⟩
      have hsmall : i < maxPoolCapacity :=
        Nat.lt_of_lt_of_le (h.lt_capacity (Or.inl List.mem_cons_self)) h.supported
      have htop : Pool.AcquirePhase.top p.head = i := by
        have htarget := Pool.target?_linkTo hsmall
        rw [← hi, Pool.target?, if_neg hlink] at htarget
        exact Option.some.inj htarget
      refine ⟨rest, next, by rw [htop], ?_, hrest⟩
      rw [htop]
      exact hnext

/-- A head that is found again has not changed in between, if fewer changes than there are
versions can have been. -/
theorem Saw.readAt_eq {readAt : Nat} {seen : PoolHead} (h : Saw p first changes readAt seen)
    (hversion : p.head.version = first + UInt32.ofNat changes)
    (htime : changes < readAt + UInt32.size) (hseen : p.head = seen) : readAt = changes := by
  have heq : UInt32.ofNat readAt = UInt32.ofNat changes := by
    apply (UInt32.add_right_inj first).1
    rw [← h.version, ← hversion, hseen]
  have hmod : readAt % UInt32.size = changes % UInt32.size := by
    simpa using congrArg UInt32.toNat heq
  have hle := h.le
  have hsize : UInt32.size = 4294967296 := rfl
  rw [hsize] at hmod htime
  omega

/-! ## Handing records on -/

/-- Only the threads as a whole matter. -/
theorem Shares.perm (h : Shares p first changes capacity free threads)
    (hperm : threads.Perm threads') : Shares p first changes capacity free threads' where
  threaded := h.threaded
  capacity_eq := h.capacity_eq
  supported := h.supported
  places := ((hperm.flatMap_right _).symm.append_left free).trans h.places
  version := h.version
  balance := by
    rw [h.balance, (hperm.map fun w => w.activity.uncounted).sum_eq]
  knows := fun w hw => h.knows w (hperm.mem_iff.2 hw)

/-- Records can be handed on from thread to thread. -/
theorem Shares.handOver (h : Shares p first changes capacity free (v :: w :: others))
    (hrecords : (v'.records ++ w'.records).Perm (v.records ++ w.records))
    (hcount : v'.activity.uncounted + w'.activity.uncounted =
      v.activity.uncounted + w.activity.uncounted)
    (hv : v'.activity.Knows p first changes v'.readAt)
    (hw : w'.activity.Knows p first changes w'.readAt) :
    Shares p first changes capacity free (v' :: w' :: others) where
  threaded := h.threaded
  capacity_eq := h.capacity_eq
  supported := h.supported
  places := by
    refine List.Perm.trans (List.Perm.append_left free ?_) h.places
    simp only [List.flatMap_cons, ← List.append_assoc]
    exact hrecords.append_right _
  version := h.version
  balance := by
    have hbalance := h.balance
    simp only [List.map_cons, List.sum_cons] at hbalance ⊢
    omega
  knows := by
    intro u hu
    rcases List.mem_cons.1 hu with rfl | hu
    · exact hv
    · rcases List.mem_cons.1 hu with rfl | hu
      · exact hw
      · exact h.knows u (List.mem_cons_of_mem v (List.mem_cons_of_mem w hu))

/-! ## What others know -/

/-- Whatever is not on top of the stack and not with the other call can be written to. -/
theorem knows_of_head_eq {a : Activity} {readAt : Nat} (h : a.Knows p first changes readAt)
    (hhead : q.head = p.head)
    (hlinks : ∀ i, i ∈ a.returning ∨ p.head.link ≠ 0 ∧ i = Pool.AcquirePhase.top p.head →
      q.links[i]? = p.links[i]?) : a.Knows q first changes readAt := by
  have hsaw : ∀ {seen}, Saw p first changes readAt seen → Saw q first changes readAt seen :=
    fun hs => ⟨hs.le, hs.version, fun ht => hhead.trans (hs.current ht)⟩
  match a, h with
  | .idle, _ => trivial
  | .acquiring .readHead, _ => trivial
  | .acquiring (.readLink seen), h => exact ⟨hsaw h.1, h.2⟩
  | .acquiring (.exchange seen next), h =>
      refine ⟨hsaw h.1, h.2.1, fun ht => ?_⟩
      have hseen := h.1.current ht
      rw [hlinks _ (Or.inr ⟨hseen ▸ h.2.1, by rw [hseen]⟩)]
      exact h.2.2 ht
  | .acquiring (.count _), _ => trivial
  | .releasing (.readHead _), _ => trivial
  | .releasing (.writeLink _ _), _ => trivial
  | .releasing (.exchange index seen), h =>
      exact (hlinks index (Or.inl List.mem_cons_self)).trans h
  | .releasing .count, _ => trivial
  | .releasing .done, _ => trivial

/-- A change of the head makes what was read before it out of date. -/
theorem knows_of_links_eq {a : Activity} {readAt : Nat} (h : a.Knows p first changes readAt)
    (hlinks : q.links = p.links) : a.Knows q first (changes + 1) readAt := by
  have hsaw : ∀ {seen}, Saw p first changes readAt seen →
      Saw q first (changes + 1) readAt seen := by
    intro seen hs
    have hle := hs.le
    exact ⟨by omega, hs.version, fun ht => by omega⟩
  match a, h with
  | .idle, _ => trivial
  | .acquiring .readHead, _ => trivial
  | .acquiring (.readLink seen), h => exact ⟨hsaw h.1, h.2⟩
  | .acquiring (.exchange seen next), h =>
      have hle := h.1.le
      exact ⟨hsaw h.1, h.2.1, fun ht => by omega⟩
  | .acquiring (.count _), _ => trivial
  | .releasing (.readHead _), _ => trivial
  | .releasing (.writeLink _ _), _ => trivial
  | .releasing (.exchange index seen), h =>
      show q.links[index]? = some seen.link
      rw [hlinks]
      exact h
  | .releasing .count, _ => trivial
  | .releasing .done, _ => trivial

/-! ## Steps of a call -/

variable {changes' : Nat} {free' : List Nat}

/-- A step of one thread, on the pool and on what the thread has. -/
theorem Shares.replace (h : Shares p first changes capacity free (w :: others))
    (hthreaded : Pool.Threaded q.links q.head.link free') (hcapacity : q.capacity = p.capacity)
    (hrecords : (free' ++ w'.records).Perm (free ++ w.records))
    (hversion : q.head.version = first + UInt32.ofNat changes')
    (hbalance : q.balance - free'.length - w'.activity.uncounted =
      p.balance - free.length - w.activity.uncounted)
    (hknows : w'.activity.Knows q first changes' w'.readAt)
    (hothers : ∀ v ∈ others, v.activity.Knows q first changes' v.readAt) :
    Shares q first changes' capacity free' (w' :: others) where
  threaded := hthreaded
  capacity_eq := hcapacity.trans h.capacity_eq
  supported := h.supported
  places := by
    refine List.Perm.trans ?_ h.places
    rw [List.flatMap_cons, List.flatMap_cons, ← List.append_assoc, ← List.append_assoc]
    exact hrecords.append_right _
  version := hversion
  balance := by
    have hcount := h.balance
    rw [List.map_cons, List.sum_cons] at hcount ⊢
    omega
  knows := by
    intro v hv
    rcases List.mem_cons.1 hv with rfl | hv
    · exact hknows
    · exact hothers v hv

/-- A thread that is about something else with the same records. -/
theorem Shares.setHead (h : Shares p first changes capacity free (w :: others))
    (hrecords : w'.records.Perm w.records)
    (hcount : w'.activity.uncounted = w.activity.uncounted)
    (hknows : w'.activity.Knows p first changes w'.readAt) :
    Shares p first changes capacity free (w' :: others) :=
  h.replace h.threaded rfl (hrecords.append_left free) h.version (by rw [hcount]) hknows
    fun v hv => h.knows v (List.mem_cons_of_mem w hv)

/-- A head that was just read is known. -/
theorem Shares.saw (h : Shares p first changes capacity free threads) :
    Saw p first changes changes p.head :=
  ⟨Nat.le_refl _, h.version, fun _ => rfl⟩

/-- Every change of the head is told from the head before it. -/
theorem moveTo_ne (seen : PoolHead) (link : UInt32) : seen.moveTo link ≠ seen := by
  intro heq
  have hversion : seen.version + 1 = seen.version := congrArg PoolHead.version heq
  simp at hversion

theorem changesAfter_of_eq (hhead : q.head = p.head) : changesAfter changes p q = changes := by
  simp [changesAfter, hhead]

theorem changesAfter_moveTo {seen : PoolHead} {link : UInt32} (hseen : p.head = seen)
    (hhead : q.head = seen.moveTo link) : changesAfter changes p q = changes + 1 := by
  simp [changesAfter, hhead, hseen, moveTo_ne]

/-- A thread that acquires and has no record yet looks at the head. -/
theorem Shares.readHead_acquire (h : Shares p first changes capacity free (w :: others))
    (hrecords : w.records = w.holds) (hcount : w.activity.uncounted = 0) :
    Shares p first changes capacity free
      ((w.afterAcquire (.ofHead p.head)).noting changes :: others) := by
  have hothers : ∀ v ∈ others, v.activity.Knows p first changes v.readAt :=
    fun v hv => h.knows v (List.mem_cons_of_mem w hv)
  unfold Pool.AcquirePhase.ofHead
  split
  · refine h.replace h.threaded rfl ?_ h.version (by rw [hcount]; rfl) trivial hothers
    rw [hrecords]
    exact List.Perm.refl _
  · rename_i hlink
    refine h.replace h.threaded rfl ?_ h.version (by rw [hcount]; rfl) ⟨h.saw, hlink⟩ hothers
    rw [hrecords]
    exact List.Perm.refl _

/-- A step of a thread that acquires. -/
theorem shares_acquire {phase : Pool.AcquirePhase}
    (h : Shares p first changes capacity free (w :: others))
    (hw : w.activity = .acquiring phase) (htime : w.IsTimely changes) (weak : Bool) :
    let next := phase.step weak p
    let changes' := changesAfter changes p next.2
    ∃ free', Shares next.2 first changes' capacity free'
      ((w.afterAcquire next.1).noting changes' :: others) := by
  have hknows := h.knows w List.mem_cons_self
  have hothers : ∀ v ∈ others, v.activity.Knows p first changes v.readAt :=
    fun v hv => h.knows v (List.mem_cons_of_mem w hv)
  rw [hw] at hknows
  cases phase with
  | readHead =>
      refine ⟨free, ?_⟩
      simp only [Pool.AcquirePhase.step, changesAfter_of_eq]
      exact h.readHead_acquire (by simp [Worker.records, hw, Activity.taken, Activity.returning])
        (by simp [hw, Activity.uncounted])
  | readLink seen =>
      refine ⟨free, ?_⟩
      simp only [Pool.AcquirePhase.step, changesAfter_of_eq]
      refine h.replace h.threaded rfl ?_ h.version ?_ ⟨hknows.1, hknows.2, fun ht => ?_⟩ hothers
      · simp [Worker.records, hw, Worker.afterAcquire, Worker.noting, readsHead, Activity.taken,
          Activity.returning]
      · simp [hw, Worker.afterAcquire, Worker.noting, readsHead, Activity.uncounted]
      · have hseen := hknows.1.current ht
        rcases free_eq_cons_of_threaded h (hseen ▸ hknows.2) with ⟨rest, next, -, hnext, -⟩
        rw [hseen] at hnext
        simp [hnext]
  | exchange seen next =>
      by_cases hswap : weak = false ∧ p.head = seen
      · rcases hswap with ⟨rfl, hseen⟩
        have hread : w.readAt = changes :=
          hknows.1.readAt_eq h.version (htime (by rw [hw]; trivial)) hseen
        rcases free_eq_cons_of_threaded h (hseen ▸ hknows.2.1) with
          ⟨rest, below, hfree, hbelow, hrest⟩
        have hnext := hknows.2.2 hread
        rw [hseen, hnext] at hbelow
        obtain rfl : next = below := Option.some.inj hbelow
        refine ⟨rest, ?_⟩
        simp only [Pool.AcquirePhase.step, hseen, and_self, if_true]
        rw [changesAfter_moveTo hseen rfl]
        refine h.replace hrest rfl ?_ ?_ ?_ trivial fun v hv => knows_of_links_eq (hothers v hv) rfl
        · rw [hfree, hseen]
          simp only [Worker.records, hw, Worker.afterAcquire, Worker.noting, readsHead,
            Activity.taken, Activity.returning]
          exact List.perm_middle
        · simp only [PoolHead.moveTo]
          rw [← hseen, h.version, UInt32.ofNat_add, UInt32.add_assoc]
          rfl
        · have hlength := congrArg List.length hfree
          rw [List.length_cons] at hlength
          simp only [hw, Worker.afterAcquire, Worker.noting, readsHead, Activity.uncounted]
          simp only [Bool.false_eq_true, if_false]
          omega
      · refine ⟨free, ?_⟩
        simp only [Pool.AcquirePhase.step, hswap, if_false, changesAfter_of_eq]
        exact h.readHead_acquire
          (by simp [Worker.records, hw, Activity.taken, Activity.returning])
          (by simp [hw, Activity.uncounted])
  | count index =>
      refine ⟨free, ?_⟩
      simp only [Pool.AcquirePhase.step, changesAfter, if_true]
      refine h.replace h.threaded rfl ?_ h.version ?_ trivial fun v hv =>
        knows_of_head_eq (hothers v hv) rfl fun _ _ => rfl
      · simp [Worker.records, hw, Worker.afterAcquire, Worker.noting, readsHead, Activity.taken,
          Activity.returning]
      · simp [hw, Worker.afterAcquire, Worker.noting, readsHead, Activity.uncounted]
        omega
  | done index => exact hknows.elim

/-- Nothing is acquired only if no record is on the stack. -/
theorem free_eq_nil_of_acquire {phase : Pool.AcquirePhase}
    (h : Shares p first changes capacity free (w :: others))
    (hw : w.activity = .acquiring phase) {weak : Bool}
    (hnone : (phase.step weak p).1 = .done none) : free = [] := by
  have hlook : Pool.AcquirePhase.ofHead p.head = .done none → free = [] := by
    intro hdone
    by_cases hlink : p.head.link = 0
    · exact free_eq_nil_of_threaded h hlink
    · simp [Pool.AcquirePhase.ofHead, hlink] at hdone
  cases phase with
  | readHead => exact hlook hnone
  | readLink seen => cases hnone
  | exchange seen next =>
      simp only [Pool.AcquirePhase.step] at hnone
      split at hnone
      · cases hnone
      · exact hlook hnone
  | count index => cases hnone
  | done index =>
      have hknows := h.knows w List.mem_cons_self
      rw [hw] at hknows
      exact hknows.elim

/-- A thread that releases a record looks at the head. -/
theorem Shares.readHead_release {index : Nat}
    (h : Shares p first changes capacity free (w :: others))
    (hrecords : w.records = index :: w.holds) (hcount : w.activity.uncounted = 0) :
    Shares p first changes capacity free
      ((w.afterRelease (.writeLink index p.head)).noting changes :: others) := by
  refine h.replace h.threaded rfl ?_ h.version (by rw [hcount]; rfl) trivial fun v hv =>
    h.knows v (List.mem_cons_of_mem w hv)
  rw [hrecords]
  exact List.Perm.refl _

/-- A step of a thread that releases. -/
theorem shares_release {phase : Pool.ReleasePhase}
    (h : Shares p first changes capacity free (w :: others))
    (hw : w.activity = .releasing phase) (weak : Bool) :
    let next := phase.step weak p
    let changes' := changesAfter changes p next.2
    ∃ free', Shares next.2 first changes' capacity free'
      ((w.afterRelease next.1).noting changes' :: others) := by
  have hknows := h.knows w List.mem_cons_self
  have hothers : ∀ v ∈ others, v.activity.Knows p first changes v.readAt :=
    fun v hv => h.knows v (List.mem_cons_of_mem w hv)
  rw [hw] at hknows
  cases phase with
  | readHead index =>
      refine ⟨free, ?_⟩
      simp only [Pool.ReleasePhase.step, changesAfter_of_eq]
      exact h.readHead_release (by simp [Worker.records, hw, Activity.taken, Activity.returning])
        (by simp [hw, Activity.uncounted])
  | writeLink index seen =>
      have hmem : index ∈ w.records := by
        simp [Worker.records, hw, Activity.returning]
      have hfree : index ∉ free :=
        h.not_mem_free (List.mem_flatMap.2 ⟨w, List.mem_cons_self, hmem⟩)
      have hlt : index < p.links.size := by
        have hcapacity := h.lt_capacity (Or.inr (List.mem_flatMap.2 ⟨w, List.mem_cons_self, hmem⟩))
        rwa [← h.capacity_eq] at hcapacity
      refine ⟨free, ?_⟩
      simp only [Pool.ReleasePhase.step, changesAfter, if_true]
      refine h.replace (Pool.threaded_setIfInBounds _ hfree h.threaded) ?_ ?_ h.version ?_
        ?_ fun v hv => ?_
      · simp [Pool.capacity]
      · simp [Worker.records, hw, Worker.afterRelease, Worker.noting, readsHead, Activity.taken,
          Activity.returning]
      · simp [hw, Worker.afterRelease, Worker.noting, readsHead, Activity.uncounted]
      · exact Array.getElem?_setIfInBounds_self_of_lt hlt
      · refine knows_of_head_eq (hothers v hv) rfl fun i hi => ?_
        refine Array.getElem?_setIfInBounds_ne ?_
        rintro rfl
        rcases hi with hi | ⟨hlink, htop⟩
        · have hnodup := (List.nodup_append.1 h.nodup).2.1
          rw [List.flatMap_cons] at hnodup
          refine (List.nodup_append.1 hnodup).2.2 index hmem index
            (List.mem_flatMap.2 ⟨v, hv, ?_⟩) rfl
          exact List.mem_append_left _ (List.mem_append_right _ hi)
        · rcases free_eq_cons_of_threaded h hlink with ⟨rest, next, htopmost, -⟩
          exact hfree (by rw [htop, htopmost]; exact List.mem_cons_self)
  | exchange index seen =>
      by_cases hswap : weak = false ∧ p.head = seen
      · rcases hswap with ⟨rfl, hseen⟩
        have hlink : p.links[index]? = some seen.link := hknows
        rw [← hseen] at hlink
        refine ⟨index :: free, ?_⟩
        simp only [Pool.ReleasePhase.step, hseen, and_self, if_true]
        rw [changesAfter_moveTo hseen rfl]
        refine h.replace ⟨rfl, p.head.link, hlink, h.threaded⟩ rfl ?_ ?_ ?_ trivial fun v hv =>
          knows_of_links_eq (hothers v hv) rfl
        · simp only [Worker.records, hw, Worker.afterRelease, Worker.noting, readsHead,
            Activity.taken, Activity.returning]
          exact List.perm_middle.symm
        · simp only [PoolHead.moveTo]
          rw [← hseen, h.version, UInt32.ofNat_add, UInt32.add_assoc]
          rfl
        · simp only [hw, Worker.afterRelease, Worker.noting, readsHead, Activity.uncounted]
          simp
          omega
      · refine ⟨free, ?_⟩
        simp only [Pool.ReleasePhase.step, hswap, if_false, changesAfter_of_eq]
        exact h.readHead_release
          (by simp [Worker.records, hw, Activity.taken, Activity.returning])
          (by simp [hw, Activity.uncounted])
  | count =>
      refine ⟨free, ?_⟩
      simp only [Pool.ReleasePhase.step, changesAfter, if_true]
      refine h.replace h.threaded rfl ?_ h.version ?_ trivial fun v hv =>
        knows_of_head_eq (hothers v hv) rfl fun _ _ => rfl
      · simp [Worker.records, hw, Worker.afterRelease, Worker.noting, readsHead, Activity.taken,
          Activity.returning]
      · simp [hw, Worker.afterRelease, Worker.noting, readsHead, Activity.uncounted]
        omega
  | done =>
      refine ⟨free, ?_⟩
      simp only [Pool.ReleasePhase.step, changesAfter_of_eq]
      refine h.replace h.threaded rfl ?_ h.version ?_ trivial hothers
      · simp [Worker.records, hw, Worker.afterRelease, Worker.noting, readsHead, Activity.taken,
          Activity.returning]
      · simp [hw, Worker.afterRelease, Worker.noting, readsHead, Activity.uncounted]

end PoolThreads

end EventLog
