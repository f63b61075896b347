import Mathlib.Algebra.Ring.Int.Defs
import Mathlib.Algebra.Ring.Nat
import Mathlib.Data.List.Chain
import Mathlib.Data.List.Rotate
import EventLog.Proofs.Transport.PoolStack

/-!
# Pools with records given back at any time

A pool does not know which of its records are out.  It takes back any record of its own, also
one that lies on its stack, and refuses every other.  A record that is given back while it is
free is linked to the top again, and so the records above it and the record itself become a
loop, from which the records below it are never reached.

Whatever is given back, every link still leads to a record of the pool or to none.  This is
enough for the calls to return and for the counter to be the balance of the calls.

Main results:

- `Pool.attempt_cases`: what a call does.
- `Pool.isLoop_release`: a free record that is given back closes a loop.
- `Pool.repeats_of_isLoop`: a pool hands out the records of a loop one after the other, without
  an end.
- `Pool.withstands_attempts`: what a caller can rely on after any calls.
-/

namespace EventLog

namespace Pool

/-! ## Calls with any record -/

/-- A call by someone who may give back any record. -/
inductive Attempt where
  | acquire
  | release (r : Record)
  deriving DecidableEq, Repr

/-- How a call ends. -/
inductive Outcome where
  | record (index : Nat)
  /-- No record is free. -/
  | exhausted
  | released
  | broken (p : Panic)
  deriving DecidableEq, Repr

/-- A record was handed out. -/
def Outcome.isRecord : Outcome → Bool
  | record _ => true
  | _ => false

/-- One call.  A call that breaks off leaves the pool as it was. -/
def attempt (p : Pool) : Attempt → Outcome × Pool
  | .acquire =>
    match p.acquire with
    | .error e => (.broken e, p)
    | .ok (none, q) => (.exhausted, q)
    | .ok (some i, q) => (.record i, q)
  | .release r =>
    match p.release r with
    | .error e => (.broken e, p)
    | .ok q => (.released, q)

/-- Calls in order. -/
def attempts (p : Pool) : List Attempt → List Outcome × Pool
  | [] => ([], p)
  | a :: as =>
    let (outcome, q) := p.attempt a
    let (outcomes, r) := q.attempts as
    (outcome :: outcomes, r)

/-! ## Links -/

/-- A link leads to one of `n` records, or to none. -/
def LeadsWithin (n : Nat) (link : UInt32) : Prop :=
  link = 0 ∨ ∃ i < n, link = linkTo i

/-- All links of a pool lead to its records.  They need not form a stack. -/
structure IsLinked (p : Pool) : Prop where
  head : LeadsWithin p.capacity p.head.link
  links : ∀ (i : Nat) (next : UInt32), p.links[i]? = some next → LeadsWithin p.capacity next
  /-- Every record has a link of its own. -/
  supported : p.capacity ≤ maxPoolCapacity

variable {p q : Pool} {i : Nat}

theorem isLinked_blank {number capacity : Nat} (h : capacity ≤ maxPoolCapacity) :
    (blank number capacity).IsLinked where
  head := Or.inl rfl
  links := by
    intro i next hnext
    have hzero : next = 0 := by
      rw [blank, Array.getElem?_replicate] at hnext
      split at hnext
      · exact (Option.some.inj hnext).symm
      · cases hnext
    exact Or.inl hzero
  supported := by simpa [blank, Pool.capacity] using h

/-- A record of the pool may be put on top, whether it is free or not. -/
theorem isLinked_pushFree (h : p.IsLinked) (hi : i < p.capacity) : (p.pushFree i).IsLinked where
  head := by
    rw [capacity_pushFree]
    exact Or.inr ⟨i, hi, rfl⟩
  links := by
    intro j next hnext
    rw [capacity_pushFree]
    by_cases hj : i = j
    · subst hj
      rw [pushFree, Array.getElem?_setIfInBounds_self_of_lt hi] at hnext
      obtain rfl : p.head.link = next := Option.some.inj hnext
      exact h.head
    · rw [pushFree, Array.getElem?_setIfInBounds_ne hj] at hnext
      exact h.links j next hnext
  supported := by
    rw [capacity_pushFree]
    exact h.supported

theorem isLinked_foldr_pushFree {number capacity : Nat} (hsize : capacity ≤ maxPoolCapacity)
    {indices : List Nat} (hbound : ∀ i ∈ indices, i < capacity) :
    let p := indices.foldr (fun i p => p.pushFree i) (blank number capacity)
    p.IsLinked ∧ p.capacity = capacity := by
  induction indices with
  | nil => exact ⟨isLinked_blank hsize, by simp [blank, Pool.capacity]⟩
  | cons i indices ih =>
      rcases ih fun j hj => hbound j (List.mem_cons_of_mem i hj) with ⟨hlinked, hcapacity⟩
      have hi : i < capacity := hbound i List.mem_cons_self
      refine ⟨isLinked_pushFree hlinked (hcapacity.symm ▸ hi), ?_⟩
      rw [List.foldr_cons, capacity_pushFree]
      exact hcapacity

theorem isLinked_new {number capacity : Nat} (h : new number capacity = .ok p) : p.IsLinked := by
  unfold new at h
  split at h
  · cases h
  next hsize =>
    cases h
    exact (isLinked_foldr_pushFree (Nat.le_of_not_lt hsize) fun i hi => List.mem_range.1 hi).1

/-! ## What a call does -/

/-- The pool without the record on top, whose link is `next`. -/
def takeTop (p : Pool) (next : UInt32) : Pool :=
  { p with head := p.head.moveTo next, balance := p.balance - 1 }

/-- A record on top is handed out. -/
theorem attempt_acquire_of_link (h : p.capacity ≤ maxPoolCapacity) {next : UInt32}
    (hlink : p.head.link = linkTo i) (hnext : p.links[i]? = some next) :
    p.attempt .acquire = (.record i, p.takeTop next) := by
  have hi : i < p.capacity := (Array.getElem?_eq_some_iff.1 hnext).1
  have htarget : target? p.head.link = some i := by
    rw [hlink]
    exact target?_linkTo (Nat.lt_of_lt_of_le hi h)
  simp [attempt, acquire, htarget, hnext, takeTop]

/-- A record of the pool is taken back, free or not. -/
theorem attempt_release_of_owns {r : Record} (h : p.Owns r) :
    p.attempt (.release r) = (.released, p.pushFree r.index.toNat) := by
  simp [attempt, release, h]

/-- Any other record is refused. -/
theorem attempt_release_of_not_owns {r : Record} (h : ¬ p.Owns r) :
    p.attempt (.release r) = (.broken .foreignRecord, p) := by
  simp [attempt, release, h]

/-- A call takes the record on top, finds none, takes back a record of the pool, or refuses
another one. -/
theorem attempt_cases (h : p.IsLinked) (a : Attempt) :
    (∃ i next, a = .acquire ∧ i < p.capacity ∧ p.head.link = linkTo i ∧
      LeadsWithin p.capacity next ∧ p.attempt a = (.record i, p.takeTop next)) ∨
    (a = .acquire ∧ p.head.link = 0 ∧ p.attempt a = (.exhausted, p)) ∨
    (∃ r, a = .release r ∧ p.Owns r ∧ p.attempt a = (.released, p.pushFree r.index.toNat)) ∨
    (∃ r, a = .release r ∧ ¬ p.Owns r ∧ p.attempt a = (.broken .foreignRecord, p)) := by
  cases a with
  | acquire =>
      rcases h.head with hnone | ⟨i, hi, hlink⟩
      · exact Or.inr (Or.inl ⟨rfl, hnone, by simp [attempt, acquire, target?, hnone]⟩)
      · have hnext : p.links[i]? = some p.links[i] := Array.getElem?_eq_getElem hi
        refine Or.inl ⟨i, p.links[i], rfl, hi, hlink, h.links i _ hnext, ?_⟩
        exact attempt_acquire_of_link h.supported hlink hnext
  | release r =>
      by_cases howns : p.Owns r
      · exact Or.inr (Or.inr (Or.inl ⟨r, rfl, howns, attempt_release_of_owns howns⟩))
      · exact Or.inr (Or.inr (Or.inr ⟨r, rfl, howns, attempt_release_of_not_owns howns⟩))

/-- A record is asked for: the one on top is handed out, or there is none. -/
theorem attempt_acquire_cases (h : p.IsLinked) :
    (∃ i next, i < p.capacity ∧ p.head.link = linkTo i ∧
      p.attempt .acquire = (.record i, p.takeTop next)) ∨
    (p.head.link = 0 ∧ p.attempt .acquire = (.exhausted, p)) := by
  rcases attempt_cases h .acquire with ⟨i, next, -, hi, hlink, -, hattempt⟩ |
    ⟨-, hlink, hattempt⟩ | ⟨r, hr, -⟩ | ⟨r, hr, -⟩
  · exact Or.inl ⟨i, next, hi, hlink, hattempt⟩
  · exact Or.inr ⟨hlink, hattempt⟩
  · cases hr
  · cases hr

/-- A pool is exhausted exactly if the next record that is asked for is not there. -/
theorem isExhausted_iff_of_isLinked (h : p.IsLinked) :
    p.isExhausted = true ↔ (p.attempt .acquire).1 = .exhausted := by
  rw [isExhausted, decide_eq_true_iff]
  rcases attempt_acquire_cases h with ⟨i, next, hi, hlink, hattempt⟩ | ⟨hlink, hattempt⟩
  · have htarget := target?_linkTo (Nat.lt_of_lt_of_le hi h.supported)
    have hne : p.head.link ≠ 0 := by
      intro hzero
      simp [← hlink, hzero, target?] at htarget
    simp [hattempt, hne]
  · simp [hattempt, hlink]

/-! ## Runs -/

/-- The pool that calls lead to from a pool, by how they ended. -/
structure Reaches (p : Pool) (outcomes : List Outcome) (q : Pool) : Prop where
  linked : q.IsLinked
  number_eq : q.number = p.number
  capacity_eq : q.capacity = p.capacity
  /-- The counter goes down with every record handed out and up with every record taken back. -/
  balance : q.balance =
    p.balance - outcomes.countP Outcome.isRecord + outcomes.countP (· = .released)

theorem reaches_attempt (h : p.IsLinked) (a : Attempt) :
    p.Reaches [(p.attempt a).1] (p.attempt a).2 := by
  rcases attempt_cases h a with ⟨i, next, -, -, -, hnext, hattempt⟩ | ⟨-, -, hattempt⟩ |
    ⟨r, -, howns, hattempt⟩ | ⟨r, -, -, hattempt⟩
  · rw [hattempt]
    exact ⟨⟨hnext, h.links, h.supported⟩, rfl, rfl, by simp [takeTop, Outcome.isRecord]⟩
  · rw [hattempt]
    exact ⟨h, rfl, rfl, by simp [Outcome.isRecord]⟩
  · rw [hattempt]
    exact ⟨isLinked_pushFree h howns.2, rfl, capacity_pushFree p _,
      by simp [pushFree, Outcome.isRecord]⟩
  · rw [hattempt]
    exact ⟨h, rfl, rfl, by simp [Outcome.isRecord]⟩

theorem reaches_attempts (h : p.IsLinked) (as : List Attempt) :
    p.Reaches (p.attempts as).1 (p.attempts as).2 := by
  induction as generalizing p with
  | nil => exact ⟨h, rfl, rfl, by simp [attempts]⟩
  | cons a as ih =>
      have hfirst := reaches_attempt h a
      have hrest := ih hfirst.linked
      refine ⟨hrest.linked, hrest.number_eq.trans hfirst.number_eq,
        hrest.capacity_eq.trans hfirst.capacity_eq, ?_⟩
      have hbalance := hrest.balance
      rw [hfirst.balance] at hbalance
      simp only [attempts, List.countP_cons, List.countP_nil] at hbalance ⊢
      omega

/-! ## Loops -/

/-- The link of a record leads to another one. -/
def Follows (links : Array UInt32) (i j : Nat) : Prop :=
  links[i]? = some (linkTo j)

/-- The links lead from the head through the listed records and back to the first of them. -/
def IsLoop (p : Pool) (loop : List Nat) : Prop :=
  ∃ i path, loop = i :: path ∧ p.head.link = linkTo i ∧
    (i :: path ++ [i]).IsChain (Follows p.links)

/-- From a loop the first record is handed out and becomes the last. -/
theorem attempt_of_isLoop (hsupported : p.capacity ≤ maxPoolCapacity) {loop : List Nat}
    (h : p.IsLoop loop) :
    ∃ i q, loop.head? = some i ∧ p.attempt .acquire = (.record i, q) ∧
      q.capacity = p.capacity ∧ q.IsLoop (loop.rotate 1) := by
  rcases h with ⟨i, path, rfl, hlink, hchain⟩
  have hrotate : (i :: path).rotate 1 = path ++ [i] := by simp
  rw [hrotate]
  rw [List.cons_append] at hchain
  cases hrest : path ++ [i] with
  | nil => simp at hrest
  | cons j rest =>
      rw [hrest, List.isChain_cons_cons] at hchain
      rcases hchain with ⟨hnext, hchain⟩
      refine ⟨i, p.takeTop (linkTo j), rfl, attempt_acquire_of_link hsupported hlink hnext, rfl,
        j, rest, rfl, rfl, ?_⟩
      -- the last record of the rotated loop is `i`, and it leads to the new first one
      refine List.IsChain.append hchain (List.isChain_singleton j) ?_
      intro x hx y hy
      rw [← hrest, List.getLast?_concat] at hx
      obtain rfl : i = x := Option.some.inj hx
      obtain rfl : j = y := Option.some.inj hy
      exact hnext

/-- As long as records are only asked for, the listed ones are handed out in order, over and over
again. -/
def Repeats (p : Pool) (loop : List Nat) : Prop :=
  ∀ k, ∀ j < k, (p.attempts (List.replicate k .acquire)).1[j]? =
    loop[j % loop.length]?.map Outcome.record

/-- The records of a loop are handed out one after the other, without an end. -/
theorem repeats_of_isLoop (hsupported : p.capacity ≤ maxPoolCapacity) {loop : List Nat}
    (h : p.IsLoop loop) : p.Repeats loop := by
  intro k
  induction k generalizing p loop with
  | zero => simp
  | succ k ih =>
      rcases attempt_of_isLoop hsupported h with ⟨i, q, hi, hattempt, hcapacity, hloop⟩
      have houtcomes := ih (hcapacity.symm ▸ hsupported) hloop
      have hpos : 0 < loop.length := by
        cases loop with
        | nil => cases hi
        | cons i path => simp
      simp only [List.replicate_succ, attempts, hattempt]
      intro j hj
      cases j with
      | zero =>
          rw [List.getElem?_cons_zero, Nat.zero_mod, ← List.head?_eq_getElem?, hi]
          rfl
      | succ j =>
          have hmod : j % loop.length < loop.length := Nat.mod_lt j hpos
          rw [List.getElem?_cons_succ, houtcomes j (by omega), List.length_rotate,
            List.getElem?_rotate hmod, Nat.mod_add_mod]

/-! ## Stacks that become loops -/

variable {free : List Nat} {d : Nat}

/-- The links of a stack lead from the head to the record on top and from each record to the
one below. -/
theorem isChain_of_threaded {links : Array UInt32} {link : UInt32}
    (h : Threaded links link free) :
    free.IsChain (Follows links) ∧ ∀ i ∈ free.head?, link = linkTo i := by
  induction free generalizing link with
  | nil => exact ⟨List.isChain_nil, by simp⟩
  | cons i free ih =>
      rcases h with ⟨hlink, next, hnext, hrest⟩
      rcases ih hrest with ⟨hchain, hhead⟩
      refine ⟨hchain.cons ?_, by simpa using hlink⟩
      intro j hj
      rw [Follows, hnext, hhead j hj]

/-- The records of a stack have links. -/
theorem lt_size_of_threaded {links : Array UInt32} {link : UInt32} (h : Threaded links link free)
    (hi : i ∈ free) : i < links.size := by
  induction free generalizing link with
  | nil => cases hi
  | cons j free ih =>
      rcases h with ⟨-, next, hnext, hrest⟩
      rcases List.mem_cons.1 hi with rfl | hi
      · exact (Array.getElem?_eq_some_iff.1 hnext).1
      · exact ih hrest hi

/-- Below a record of a stack stands what its link leads to. -/
theorem threaded_of_append {links : Array UInt32} {link : UInt32} {above below : List Nat}
    (h : Threaded links link (above ++ i :: below)) : Threaded links (linkTo i) (i :: below) := by
  induction above generalizing link with
  | nil => exact ⟨rfl, h.2⟩
  | cons j above ih =>
      rcases h with ⟨-, next, -, hrest⟩
      exact ih hrest

/-- No record is on a stack twice: it would be below itself, and the stack would not end. -/
theorem nodup_of_threaded {links : Array UInt32} (hsize : links.size ≤ maxPoolCapacity)
    {link : UInt32} (h : Threaded links link free) : free.Nodup := by
  have hbound : ∀ {link : UInt32} {free : List Nat}, Threaded links link free →
      ∀ i ∈ free, i < maxPoolCapacity := by
    intro link free hthreaded i hi
    exact Nat.lt_of_lt_of_le (lt_size_of_threaded hthreaded hi) hsize
  induction free generalizing link with
  | nil => exact List.nodup_nil
  | cons i free ih =>
      have hwhole := h
      rcases h with ⟨hlink, next, -, hrest⟩
      refine List.nodup_cons.2 ⟨?_, ih hrest⟩
      intro hmem
      rcases List.append_of_mem hmem with ⟨above, below, rfl⟩
      have hbelow := threaded_of_append hrest
      rw [← hlink] at hbelow
      -- one walk finds both the whole stack and the part from the second occurrence
      have hlong := walk_of_threaded hwhole (hbound hwhole) (Nat.le_refl _)
      have hsteps : below.length < (i :: (above ++ i :: below)).length := by
        rw [List.length_cons, List.length_append, List.length_cons]
        omega
      have hshort := walk_of_threaded hbelow (hbound hbelow) hsteps
      have hlength := congrArg List.length (hlong.symm.trans hshort)
      simp only [List.length_cons, List.length_append] at hlength
      omega

/-- A free record that is given back is followed by the records that were above it, and these
by itself. -/
theorem isLoop_release (h : Threaded p.links p.head.link free)
    (hsupported : p.capacity ≤ maxPoolCapacity) (hd : free[d]? = some i) :
    (p.pushFree i).IsLoop (i :: free.take d) := by
  have hi : i < p.capacity := lt_size_of_threaded h (List.mem_of_getElem? hd)
  have htake : free.take (d + 1) = free.take d ++ [i] := by
    rw [List.take_add_one, hd]
    rfl
  have hfresh : i ∉ free.take d := by
    have hnodup := (nodup_of_threaded hsupported h).sublist (List.take_sublist (d + 1) free)
    rw [htake] at hnodup
    intro hmem
    exact (List.nodup_append.1 hnodup).2.2 i hmem i List.mem_cons_self rfl
  rcases isChain_of_threaded h with ⟨hchain, hhead⟩
  have habove : (free.take d ++ [i]).IsChain (Follows p.links) := htake ▸ hchain.take (d + 1)
  rw [List.isChain_append] at habove
  -- no record above has lost its link
  have hkept : ∀ j ∈ free.take d, ∀ k, Follows p.links j k → Follows (p.pushFree i).links j k := by
    intro j hj k hfollows
    have hne : i ≠ j := fun heq => hfresh (heq ▸ hj)
    rw [Follows, pushFree, Array.getElem?_setIfInBounds_ne hne]
    exact hfollows
  have hfirst : ∀ j ∈ (free.take d ++ [i]).head?, Follows (p.pushFree i).links i j := by
    intro j hj
    have htop : j ∈ free.head? := by
      rw [← htake, List.head?_take] at hj
      simpa using hj
    rw [Follows, pushFree, Array.getElem?_setIfInBounds_self_of_lt hi, hhead j htop]
  refine ⟨i, free.take d, rfl, rfl, ?_⟩
  rw [List.cons_append]
  refine List.IsChain.cons ?_ hfirst
  refine List.IsChain.append ?_ (List.isChain_singleton i) ?_
  · exact habove.1.imp_of_mem_imp fun j k hj _ hfollows => hkept j hj k hfollows
  · intro j hj k hk
    exact hkept j (List.mem_of_getLast? hj) k (habove.2.2 j hj k hk)

/-! ## Pools in any hands -/

/-- What a caller can rely on in a pool `q` that calls with these outcomes led to from a new pool
`p`, whatever records were given back. -/
structure Withstands (p : Pool) (outcomes : List Outcome) (q : Pool) : Prop where
  owns_iff : ∀ r, q.Owns r ↔ p.Owns r
  /-- The next call returns a record of the pool, or finds none. -/
  acquire_returns : (∃ i < p.capacity, (q.attempt .acquire).1 = .record i) ∨
    (q.attempt .acquire).1 = .exhausted
  /-- A record of the pool is taken back, free or not. -/
  release_owned : ∀ r, p.Owns r → (q.attempt (.release r)).1 = .released
  /-- A record of another pool, or of none, is refused, and nothing changes. -/
  release_foreign : ∀ r, ¬ p.Owns r → q.attempt (.release r) = (.broken .foreignRecord, q)
  isExhausted_iff : q.isExhausted = true ↔ (q.attempt .acquire).1 = .exhausted
  /-- The counter shows the balance of the calls, or nothing if that is negative. -/
  available : (q.available : Int) =
    max 0 ((p.capacity : Int) - outcomes.countP Outcome.isRecord +
      outcomes.countP (· = .released))
  /-- A signed word of sixty-four bits holds the counter, unless there were more calls than such a
  word can count. -/
  counter_fits : p.capacity + outcomes.length < 2 ^ 63 →
    -2 ^ 63 ≤ q.balance ∧ q.balance < 2 ^ 63
  /-- If the free records are a stack and the one at depth `d` is given back, it is handed out
  next and then the `d` different records above it, over and over again. -/
  release_free : ∀ free d i, Threaded q.links q.head.link free → free[d]? = some i →
    (i :: free.take d).Nodup ∧ (i :: free.take d).length = d + 1 ∧
      ∃ r, q.attempt (.release (q.record i)) = (.released, r) ∧ r.Repeats (i :: free.take d)

/-- The record of a pool with an index is one of the pool. -/
theorem owns_record (h : p.capacity ≤ maxPoolCapacity) (hi : i < p.capacity) :
    p.Owns (p.record i) ∧ (p.record i).index.toNat = i := by
  have hindex : (p.record i).index.toNat = i := by
    have hsmall : i < UInt32.size := by
      unfold maxPoolCapacity at h
      omega
    exact UInt32.toNat_ofNat_of_lt' hsmall
  exact ⟨⟨rfl, hindex.symm ▸ hi⟩, hindex⟩

/-- The outcomes of a loop that a free record closes. -/
theorem release_free_of_threaded (hsupported : q.capacity ≤ maxPoolCapacity)
    (h : Threaded q.links q.head.link free) (hd : free[d]? = some i) :
    (i :: free.take d).Nodup ∧ (i :: free.take d).length = d + 1 ∧
      ∃ r, q.attempt (.release (q.record i)) = (.released, r) ∧ r.Repeats (i :: free.take d) := by
  have hdepth : d < free.length := (List.getElem?_eq_some_iff.1 hd).1
  have hlength : (i :: free.take d).length = d + 1 := by
    rw [List.length_cons, List.length_take, Nat.min_eq_left (Nat.le_of_lt hdepth)]
  have hperm : (i :: free.take d).Perm (free.take (d + 1)) := by
    rw [List.take_add_one, hd]
    exact (List.perm_append_singleton i (free.take d)).symm
  have hnodup : (i :: free.take d).Nodup :=
    hperm.nodup_iff.2 ((nodup_of_threaded hsupported h).sublist (List.take_sublist _ free))
  rcases owns_record hsupported (lt_size_of_threaded h (List.mem_of_getElem? hd)) with
    ⟨howns, hindex⟩
  refine ⟨hnodup, hlength, q.pushFree i, ?_, ?_⟩
  · rw [attempt_release_of_owns howns, hindex]
  · exact repeats_of_isLoop (capacity_pushFree q i ▸ hsupported) (isLoop_release h hsupported hd)

/-- A pool of more records than can be numbered is not made.  Any other pool withstands any calls
in any order: a record that is not its own is refused, every other call returns, and a free
record that is given back closes a loop. -/
theorem withstands_attempts (number capacity : Nat) :
    (maxPoolCapacity < capacity ∧ Pool.new number capacity = .error .poolTooLarge) ∨
      ∃ p, Pool.new number capacity = .ok p ∧ p.capacity = capacity ∧
        ∀ calls, p.Withstands (p.attempts calls).1 (p.attempts calls).2 := by
  rcases Nat.lt_or_ge maxPoolCapacity capacity with hlarge | hsize
  · exact Or.inl ⟨hlarge, by rw [Pool.new, if_pos hlarge]⟩
  rcases new_eq_ok_iff.2 hsize with ⟨p, hnew⟩
  rcases isStack_new hnew with ⟨hstack, hcapacity⟩
  refine Or.inr ⟨p, hnew, hcapacity, ?_⟩
  intro calls
  have hreaches := reaches_attempts (isLinked_new hnew) calls
  generalize (p.attempts calls).1 = outcomes at hreaches ⊢
  generalize (p.attempts calls).2 = q at hreaches ⊢
  have howns : ∀ r, q.Owns r ↔ p.Owns r := by
    intro r
    rw [Owns, Owns, hreaches.number_eq, hreaches.capacity_eq]
  have hbalance := hreaches.balance
  rw [hstack.balance, List.length_range, ← hcapacity] at hbalance
  exact {
    owns_iff := howns
    acquire_returns := by
      rcases attempt_acquire_cases hreaches.linked with ⟨i, next, hi, -, hattempt⟩ | ⟨-, hattempt⟩
      · exact Or.inl ⟨i, hreaches.capacity_eq ▸ hi, by rw [hattempt]⟩
      · exact Or.inr (by rw [hattempt])
    release_owned := by
      intro r hr
      rw [attempt_release_of_owns ((howns r).2 hr)]
    release_foreign := by
      intro r hr
      exact attempt_release_of_not_owns fun h => hr ((howns r).1 h)
    isExhausted_iff := isExhausted_iff_of_isLinked hreaches.linked
    available := by
      rw [available, Int.toNat_eq_max, hbalance, Int.max_comm]
    counter_fits := by
      intro hcalls
      have hrecords : outcomes.countP Outcome.isRecord ≤ outcomes.length := List.countP_le_length
      have hreleases : outcomes.countP (· = .released) ≤ outcomes.length := List.countP_le_length
      omega
    release_free := by
      intro free d i hfree hd
      exact release_free_of_threaded hreaches.linked.supported hfree hd }

/-- Of three free records the second is given back: it and the first are handed out in turns. -/
example :
    (((Pool.new 0 3).toOption.getD default).attempts
        (.release ⟨some 0, 1⟩ :: List.replicate 5 .acquire)).1 =
      [.released, .record 1, .record 0, .record 1, .record 0, .record 1] := by
  decide

end Pool

end EventLog
