import Mathlib.Data.List.Nodup
import EventLog.Proofs.Interleaving.PoolSharing

/-!
# Runs of threads on a pool

Threads that acquire and release records of one pool in any interleaving never share a record.
A call comes back without a record only if there was none on the stack when it read the head,
and between calls the stack and the counter show exactly the records that no thread holds.

The version of the head has thirty-two bits.  The runs are those in which a thread that compares
the head finds fewer changes than that since it read it; a run that is shorter is always one of
them.

Main results:

- `PoolThreads.sound_step`: a step keeps the records apart.
- `PoolThreads.inTime_of_length`: a run that is shorter than the versions are many is in time.
- `PoolThreads.acquire_alone`: a thread that acquires alone gets what the operation gives.
- `PoolThreads.isSafe_run`: what every run leads to.
-/

namespace EventLog

namespace PoolThreads

/-! ## Runs -/

/-- The state after a schedule of moves; `none` if one of them cannot be made. -/
def run? : State → List (Nat × Move) → Option State
  | s, [] => some s
  | s, (i, m) :: schedule =>
    match step? s i m with
    | none => none
    | some t => run? t schedule

/-- Whenever a thread compares the head, fewer changes of it than there are versions lie between
that and its last read of the head. -/
def InTime : State → List (Nat × Move) → Prop
  | _, [] => True
  | s, (i, m) :: schedule =>
    (∀ w, s.threads[i]? = some w → w.IsTimely s.changes) ∧
      match step? s i m with
      | none => True
      | some t => InTime t schedule

/-- The records that threads have, in a call or between calls. -/
def State.records (s : State) : List Nat := s.threads.toList.flatMap Worker.records

/-- The records that threads hold. -/
def State.held (s : State) : List Nat := s.threads.toList.flatMap Worker.holds

variable {s t : State} {first : UInt32} {capacity i : Nat} {m : Move}

/-! ## One thread among all -/

/-- An array as one of its entries and the others, also after a change of that entry. -/
theorem exists_perm_of_getElem? {α : Type} {threads : Array α} {w : α}
    (h : threads[i]? = some w) :
    ∃ others, threads.toList.Perm (w :: others) ∧
      ∀ w', (threads.setIfInBounds i w').toList.Perm (w' :: others) := by
  rcases Array.getElem?_eq_some_iff.1 h with ⟨hi, rfl⟩
  have hi' : i < threads.toList.length := by simpa using hi
  refine ⟨threads.toList.eraseIdx i, ?_, fun w' => ?_⟩
  · have hperm := List.getElem_cons_eraseIdx_perm hi'
    rw [Array.getElem_toList] at hperm
    exact hperm.symm
  · rw [Array.toList_setIfInBounds]
    exact List.set_perm_cons_eraseIdx hi' w'

/-- What is in the list of one entry is in no other's if the lists do not repeat. -/
theorem index_eq_of_nodup_flatMap {α β : Type} {threads : Array α} {f : α → List β}
    (h : (threads.toList.flatMap f).Nodup) {i j : Nat} {v w : α} {x : β}
    (hi : threads[i]? = some v) (hj : threads[j]? = some w) (hv : x ∈ f v) (hw : x ∈ f w) :
    i = j := by
  have hapart : ∀ {i j : Nat} {v w : α}, threads[i]? = some v → threads[j]? = some w →
      x ∈ f v → x ∈ f w → ¬ i < j := by
    intro i j v w hi hj hv hw hlt
    rcases Array.getElem?_eq_some_iff.1 hi with ⟨hi', rfl⟩
    rcases Array.getElem?_eq_some_iff.1 hj with ⟨hj', rfl⟩
    rw [← Array.length_toList] at hi' hj'
    exact List.pairwise_iff_getElem.1 (List.nodup_flatMap.1 h).2 i j hi' hj' hlt hv hw
  have hij := hapart hi hj hv hw
  have hji := hapart hj hi hw hv
  omega

/-! ## Steps -/

/-- Every record is on the stack or with one thread. -/
def Sound (s : State) (first : UInt32) (capacity : Nat) : Prop :=
  ∃ free, Shares s.pool first s.changes capacity free s.threads.toList

/-- In the beginning all records are on the stack. -/
theorem sound_start {p : Pool} {number : Nat} (hnew : Pool.new number capacity = .ok p)
    (threads : Nat) : Sound (start p threads) p.head.version capacity := by
  rcases Pool.isStack_new hnew with ⟨hstack, hcapacity⟩
  have hidle : ∀ w ∈ (start p threads).threads.toList, w = {} := by
    intro w hw
    rw [start, Array.toList_replicate] at hw
    exact List.eq_of_mem_replicate hw
  refine ⟨List.range capacity, hstack.threaded, hcapacity, ?_, ?_, ?_, ?_, ?_⟩
  · rw [← hcapacity]
    exact hstack.supported
  · rw [List.flatMap_eq_nil_iff.2 fun w hw => by rw [hidle w hw]; rfl, List.append_nil]
  · simp [start]
  · have hsum : ((start p threads).threads.toList.map fun w => w.activity.uncounted).sum = 0 := by
      refine List.sum_eq_zero fun x hx => ?_
      rcases List.mem_map.1 hx with ⟨w, hw, rfl⟩
      rw [hidle w hw]
      rfl
    rw [hsum, Int.add_zero]
    exact hstack.balance
  · intro w hw
    rw [hidle w hw]
    trivial

/-- A step keeps the records apart. -/
theorem sound_step (h : Sound s first capacity)
    (htime : ∀ w, s.threads[i]? = some w → w.IsTimely s.changes) (hstep : step? s i m = some t) :
    Sound t first capacity := by
  rcases h with ⟨free, hshares⟩
  unfold step? at hstep
  split at hstep
  · cases hstep
  · rename_i w hw
    rcases exists_perm_of_getElem? hw with ⟨others, hperm, hset⟩
    have hhead := hshares.perm hperm
    split at hstep
    case h_1 hidle =>
      -- an acquisition begins
      cases hstep
      refine ⟨free, (hhead.setHead ?_ ?_ ?_).perm (hset _).symm⟩
      · simp [Worker.records, hidle, Activity.taken, Activity.returning]
      · simp [hidle, Activity.uncounted]
      · trivial
    case h_2 index hidle =>
      -- a release begins
      split at hstep
      · rename_i hholds
        cases hstep
        refine ⟨free, (hhead.setHead ?_ ?_ ?_).perm (hset _).symm⟩
        · simpa [Worker.records, hidle, Activity.taken, Activity.returning] using
            (List.perm_cons_erase hholds).symm
        · simp [hidle, Activity.uncounted]
        · trivial
      · cases hstep
    case h_3 weak phase hphase =>
      cases hstep
      rcases shares_acquire hhead hphase (htime w hw) weak with ⟨free', hnext⟩
      exact ⟨free', hnext.perm (hset _).symm⟩
    case h_4 weak phase hphase =>
      cases hstep
      rcases shares_release hhead hphase weak with ⟨free', hnext⟩
      exact ⟨free', hnext.perm (hset _).symm⟩
    case h_5 => cases hstep

/-- A run keeps the records apart. -/
theorem sound_run {schedule : List (Nat × Move)} (h : Sound s first capacity)
    (htime : InTime s schedule) (hrun : run? s schedule = some t) : Sound t first capacity := by
  induction schedule generalizing s with
  | nil =>
      cases hrun
      exact h
  | cons move schedule ih =>
      rcases move with ⟨i, m⟩
      rcases htime with ⟨htimely, hrest⟩
      rw [run?] at hrun
      cases hstep : step? s i m with
      | none =>
          rw [hstep] at hrun
          cases hrun
      | some u =>
          rw [hstep] at hrun hrest
          exact ih (sound_step h htimely hstep) hrest hrun

/-! ## Short runs -/

/-- A step changes the head once at most. -/
theorem changes_step_le (hstep : step? s i m = some t) : t.changes ≤ s.changes + 1 := by
  have hcommit : ∀ w p, (s.commit i w p).changes ≤ s.changes + 1 := by
    intro w p
    simp only [State.commit, changesAfter]
    split <;> omega
  unfold step? at hstep
  split at hstep
  · cases hstep
  · split at hstep
    · cases hstep
      exact Nat.le_succ _
    · split at hstep
      · cases hstep
        exact Nat.le_succ _
      · cases hstep
    · cases hstep
      exact hcommit _ _
    · cases hstep
      exact hcommit _ _
    · cases hstep

/-- A run that is shorter than the versions are many is in time. -/
theorem inTime_of_length {schedule : List (Nat × Move)}
    (h : s.changes + schedule.length ≤ UInt32.size) : InTime s schedule := by
  induction schedule generalizing s with
  | nil => trivial
  | cons move schedule ih =>
      rcases move with ⟨i, m⟩
      rw [List.length_cons] at h
      refine ⟨fun w _ _ => by omega, ?_⟩
      cases hstep : step? s i m with
      | none => trivial
      | some u =>
          have hle := changes_step_le hstep
          exact ih (by omega)

/-! ## Calls that nobody interrupts -/

/-- Acquiring a record follows the link of the record on top. -/
theorem exists_link_of_acquire {p q : Pool} {index : Nat} (h : p.acquire = .ok (some index, q)) :
    ∃ next, p.head.link ≠ 0 ∧ Pool.AcquirePhase.top p.head = index ∧
      p.links[index]? = some next ∧
      q = { p with head := p.head.moveTo next, balance := p.balance - 1 } := by
  unfold Pool.acquire at h
  split at h
  · cases h
  · rename_i top htarget
    have hlink : p.head.link ≠ 0 := by
      intro hzero
      simp [Pool.target?, hzero] at htarget
    have htop : Pool.AcquirePhase.top p.head = top := by
      simpa [Pool.target?, hlink, Pool.AcquirePhase.top] using htarget
    split at h
    · cases h
    · rename_i next hnext
      cases h
      exact ⟨next, hlink, htop, hnext, rfl⟩

/-- Acquiring gets no record only if the head links to none. -/
theorem link_of_acquire_none {p q : Pool} (h : p.acquire = .ok (none, q)) :
    p.head.link = 0 ∧ q = p := by
  unfold Pool.acquire at h
  split at h
  · rename_i htarget
    cases h
    refine ⟨?_, rfl⟩
    by_contra hne
    simp [Pool.target?, hne] at htarget
  · split at h <;> cases h

/-- A thread that acquires alone gets what the operation gives. -/
theorem acquire_alone {p q : Pool} {index : Option Nat} (h : p.acquire = .ok (index, q)) :
    (fun s => Pool.AcquirePhase.step false s.2 s.1)^[4] (.readHead, p) = (.done index, q) := by
  cases index with
  | none =>
      rcases link_of_acquire_none h with ⟨hlink, rfl⟩
      simp [Pool.AcquirePhase.step, Pool.AcquirePhase.ofHead, hlink]
  | some index =>
      rcases exists_link_of_acquire h with ⟨next, hlink, htop, hnext, rfl⟩
      simp [Pool.AcquirePhase.step, Pool.AcquirePhase.ofHead, hlink, htop, hnext]

/-- Acquiring to exhaustion takes the records on the stack in order. -/
theorem acquireAll_of_isStack {p : Pool} {free : List Nat} {fuel : Nat} (h : p.IsStack free)
    (hfuel : free.length < fuel) :
    (acquireAll fuel p).1 = free ∧ (acquireAll fuel p).2.IsStack [] := by
  induction free generalizing p fuel with
  | nil =>
      cases fuel with
      | zero => omega
      | succ fuel => simpa [acquireAll, Pool.acquire_of_isStack_nil h] using h
  | cons i free ih =>
      cases fuel with
      | zero => omega
      | succ fuel =>
          rcases Pool.acquire_of_isStack_cons h with ⟨q, hacquire, hq, -⟩
          rw [List.length_cons] at hfuel
          have hrest := ih hq (by omega : free.length < fuel)
          simp only [acquireAll, hacquire]
          exact ⟨by rw [hrest.1], hrest.2⟩

/-! ## What every run leads to -/

/-- What threads on a pool can rely on, wherever they stand. -/
structure State.IsSafe (s : State) (capacity : Nat) : Prop where
  /-- No record is with two threads, nor with one of them twice. -/
  nodup : s.records.Nodup
  held_once : ∀ (i j : Nat) (v w : Worker) (index : Nat), s.threads[i]? = some v →
    s.threads[j]? = some w → index ∈ v.holds → index ∈ w.holds → i = j
  /-- A thread that reads the head and finds no record there reads it at a time at which all
  records are with threads. -/
  refused : ∀ (i : Nat) (w : Worker) phase weak, s.threads[i]? = some w →
    w.activity = .acquiring phase → (phase.step weak s.pool).1 = .done none →
      ∀ index < capacity, index ∈ s.records
  /-- Between calls every record is on the stack or held, and once. -/
  places : s.isQuiet = true → (s.pool.freeList ++ s.held).Perm (List.range capacity)
  available : s.isQuiet = true → s.pool.available = s.pool.freeList.length
  /-- Once all records are given back, acquiring to exhaustion yields each of them once. -/
  exhausts : s.isQuiet = true → s.held = [] → ∀ fuel, capacity < fuel →
    (acquireAll fuel s.pool).1.Perm (List.range capacity) ∧
      (acquireAll fuel s.pool).2.acquire = .ok (none, (acquireAll fuel s.pool).2)

/-- Threads that share a pool between calls leave a stack. -/
theorem Shares.isStack_of_quiet {p : Pool} {changes : Nat} {free : List Nat}
    {threads : List Worker} (h : Shares p first changes capacity free threads)
    (hquiet : ∀ w ∈ threads, w.activity = .idle) : p.IsStack free where
  threaded := h.threaded
  nodup := (List.nodup_append.1 h.nodup).1
  bounded := fun index hindex => h.capacity_eq.symm ▸ h.lt_capacity (Or.inl hindex)
  balance := by
    have hsum : (threads.map fun w => w.activity.uncounted).sum = 0 := by
      refine List.sum_eq_zero fun x hx => ?_
      rcases List.mem_map.1 hx with ⟨w, hw, rfl⟩
      rw [hquiet w hw]
      rfl
    rw [h.balance, hsum, Int.add_zero]
  supported := h.capacity_eq.symm ▸ h.supported

/-- Threads whose records are apart are safe. -/
theorem isSafe_of_sound (h : Sound s first capacity) : s.IsSafe capacity := by
  rcases h with ⟨free, hshares⟩
  have hnodup : s.records.Nodup := (List.nodup_append.1 hshares.nodup).2.1
  have hquiet : s.isQuiet = true → ∀ w ∈ s.threads.toList, w.activity = .idle := by
    intro hq w hw
    rw [State.isQuiet, Array.all_eq_true'] at hq
    simpa using hq w (Array.mem_toList_iff.1 hw)
  have hheld : s.isQuiet = true → s.records = s.held := by
    intro hq
    refine List.flatMap_congr fun w hw => ?_
    simp [Worker.records, hquiet hq w hw, Activity.taken, Activity.returning]
  have hstack : s.isQuiet = true → s.pool.IsStack free := fun hq =>
    hshares.isStack_of_quiet (hquiet hq)
  exact {
    nodup := hnodup
    held_once := fun i j v w index hv hw hiv hiw =>
      index_eq_of_nodup_flatMap hnodup hv hw (List.mem_append_right _ hiv)
        (List.mem_append_right _ hiw)
    refused := by
      intro i w phase weak hw hphase hnone index hindex
      rcases exists_perm_of_getElem? hw with ⟨others, hperm, -⟩
      have hfree : free = [] := free_eq_nil_of_acquire (hshares.perm hperm) hphase hnone
      have hmem := hshares.places.mem_iff.2 (List.mem_range.2 hindex)
      rwa [hfree, List.nil_append] at hmem
    places := by
      intro hq
      rw [Pool.freeList_of_isStack (hstack hq), ← hheld hq]
      exact hshares.places
    available := by
      intro hq
      rw [Pool.freeList_of_isStack (hstack hq)]
      exact Pool.available_of_isStack (hstack hq)
    exhausts := by
      intro hq hnone fuel hfuel
      have hall : free.Perm (List.range capacity) := by
        have hplaces := hshares.places
        have hrecords : s.threads.toList.flatMap Worker.records = [] := (hheld hq).trans hnone
        rwa [hrecords, List.append_nil] at hplaces
      have hlength : free.length < fuel := by
        rw [hall.length_eq, List.length_range]
        exact hfuel
      rcases acquireAll_of_isStack (hstack hq) hlength with ⟨hlist, hempty⟩
      exact ⟨by rw [hlist]; exact hall, Pool.acquire_of_isStack_nil hempty⟩ }

/-- Any number of threads on a new pool, in any interleaving in which a thread compares the head
in time: no record is held by two threads, a call comes back without a record only if all records
were with threads when it read the head, and between calls the stack and the counter show the
records that no thread holds. -/
theorem isSafe_run {number capacity : Nat} (hsize : capacity ≤ maxPoolCapacity) :
    ∃ p, Pool.new number capacity = .ok p ∧ ∀ threads schedule s,
      run? (start p threads) schedule = some s → InTime (start p threads) schedule →
        s.IsSafe capacity := by
  rcases Pool.new_eq_ok_iff.2 hsize with ⟨p, hnew⟩
  refine ⟨p, hnew, fun threads schedule s hrun htime => ?_⟩
  exact isSafe_of_sound (sound_run (sound_start hnew threads) htime hrun)

/-- A thread reads the head, another takes the record and gives it back meanwhile, and the
exchange of the first fails. -/
def overtaken : List (Nat × Move) :=
  [(0, .acquire), (0, .advance false), (0, .advance false),
    (1, .acquire), (1, .advance false), (1, .advance false), (1, .advance false),
    (1, .advance false), (1, .release 0), (1, .advance false), (1, .advance false),
    (1, .advance false), (1, .advance false),
    (0, .advance false), (0, .advance false), (0, .advance false), (0, .advance false)]

theorem isSafe_run_overtaken :
    ∃ p s, Pool.new 0 2 = .ok p ∧ run? (start p 2) overtaken = some s ∧
      s.held = [0] ∧ s.isQuiet = true ∧ s.IsSafe 2 := by
  rcases @isSafe_run 0 2 (by decide) with ⟨p, hp, hruns⟩
  have hnew : Pool.new 0 2 = .ok ⟨0, #[2, 0], ⟨2, 1⟩, 2⟩ := rfl
  rw [hnew, Except.ok.injEq] at hp
  subst hp
  have hrun : run? (start ⟨0, #[2, 0], ⟨2, 1⟩, 2⟩ 2) overtaken =
      some ⟨⟨0, #[2, 0], ⟨5, 2⟩, 1⟩, #[⟨.idle, [0], 2⟩, ⟨.idle, [], 1⟩], 3⟩ := rfl
  exact ⟨_, _, hnew, hrun, rfl, by simp [State.isQuiet],
    hruns 2 overtaken _ hrun (inTime_of_length (by decide))⟩

end PoolThreads

end EventLog
