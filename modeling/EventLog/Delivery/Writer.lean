import EventLog.Fault
import EventLog.Text.Basic

/-!
# Writers

A writer takes bytes, call by call.  A call may be interrupted, may take only some of
the bytes, and finds no room once a limit is reached.  What a writer does at which
call is its script; no script interrupts two calls in a row, so a write that is tried
again after each interruption comes to an end.

Main results:

- `Writer.write_interrupted`: an interrupted write is followed by one that is not.
- `Writer.stored_write`: a write appends a part of the bytes, from their beginning.
-/

namespace EventLog

/-! ## Scripts -/

/-- What a writer does at a call. -/
inductive Reaction where
  /-- Nothing is taken; the call may be tried again. -/
  | interrupted
  /-- At most `most` bytes are taken. -/
  | take (most : Nat)
  deriving DecidableEq, Repr

/-- What a writer does when there is no room left. -/
inductive WhenFull where
  | fail
  /-- The call takes no bytes. -/
  | takeNothing
  deriving DecidableEq, Repr

/-- How a writer behaves. -/
structure Script where
  /-- What it does at each call, numbered from one on. -/
  reaction : Nat → Reaction
  /-- No two calls in a row are interrupted. -/
  patient : ∀ call, reaction call = .interrupted → reaction (call + 1) ≠ .interrupted
  /-- The number of bytes that it has room for, if it is limited. -/
  limit : Option Nat
  /-- What it does when there is no room left. -/
  whenFull : WhenFull
  flushFails : Bool

namespace Script

/-- A writer that takes everything. -/
def unlimited : Script where
  reaction _ := .take UInt64.size
  patient _ h := by cases h
  limit := none
  whenFull := .fail
  flushFails := false

/-- Interrupts every `period`-th call, for a period of at least two, and takes at most
`most` bytes at any other. -/
def periodic (period most : Nat) (call : Nat) : Reaction :=
  if 2 ≤ period ∧ call % period = 0 then .interrupted else .take most

/-- A period of at least two leaves no two interruptions in a row. -/
theorem periodic_patient (period most call : Nat)
    (h : periodic period most call = .interrupted) :
    periodic period most (call + 1) ≠ .interrupted := by
  unfold periodic at h ⊢
  split at h
  · rename_i hcall
    rw [if_neg]
    · simp
    · intro hnext
      have hdvd : period ∣ call := Nat.dvd_of_mod_eq_zero hcall.2
      have hdvd' : period ∣ call + 1 := Nat.dvd_of_mod_eq_zero hnext.2
      have hone : period ∣ 1 := (Nat.dvd_add_right hdvd).1 hdvd'
      have := Nat.le_of_dvd Nat.one_pos hone
      omega
  · cases h

end Script

/-! ## Writers -/

/-- One call of a writer. -/
inductive WriterCall where
  /-- A write of a number of bytes. -/
  | write (offered : Nat)
  | flush
  deriving DecidableEq, Repr

/-- A writer and what it went through. -/
structure Writer where
  script : Script
  /-- The bytes that it has taken, the last one first. -/
  taken : List UInt8 := []
  /-- The number of writes so far. -/
  writes : Nat := 0
  /-- The calls so far, the last one first. -/
  calls : List WriterCall := []

namespace Writer

/-- What became of a write. -/
inductive Outcome where
  /-- That many bytes were taken. -/
  | wrote (count : Nat)
  | interrupted
  | failed (cause : IoFault)
  deriving DecidableEq, Repr

/-- The bytes that a writer has taken, in order. -/
def stored (w : Writer) : List UInt8 := w.taken.reverse

/-- A writer in memory. -/
def memory : Writer := { script := .unlimited }

/-- The number of bytes that there is room for, out of `offered`. -/
def room (w : Writer) (offered : Nat) : Nat :=
  match w.script.limit with
  | none => offered
  | some limit => limit - w.taken.length

/-- There is no room left. -/
def isFull (w : Writer) : Bool :=
  match w.script.limit with
  | none => false
  | some limit => limit ≤ w.taken.length

/-- The writer after a call that is counted but takes nothing. -/
def count (w : Writer) (offered : Nat) : Writer :=
  { w with writes := w.writes + 1, calls := .write offered :: w.calls }

/-- One write. -/
def write (w : Writer) (bytes : List UInt8) : Outcome × Writer :=
  let w' := w.count bytes.length
  match w.script.reaction (w.writes + 1) with
  | .interrupted => (.interrupted, w')
  | .take most =>
    if w.isFull then
      match w.script.whenFull with
      | .fail => (.failed (.described "writer is full"), w')
      | .takeNothing => (.wrote 0, w')
    else
      let count := min (min bytes.length most) (w.room bytes.length)
      (.wrote count, { w' with taken := (bytes.take count).reverse ++ w.taken })

/-- Whether the next write is interrupted, as a number. -/
def delay (w : Writer) : Nat :=
  if w.script.reaction (w.writes + 1) = .interrupted then 1 else 0

/-- Writing does not change the script. -/
theorem script_write (w : Writer) (bytes : List UInt8) : (w.write bytes).2.script = w.script := by
  unfold write count
  split
  · rfl
  · split
    · split <;> rfl
    · rfl

/-- A write is interrupted exactly when the script says so. -/
theorem write_interrupted {w w' : Writer} {bytes : List UInt8}
    (h : w.write bytes = (.interrupted, w')) : w.delay = 1 ∧ w'.delay = 0 := by
  unfold write at h
  split at h
  · rename_i hreaction
    cases h
    refine ⟨by rw [delay, if_pos hreaction], ?_⟩
    exact if_neg (w.script.patient (w.writes + 1) hreaction)
  · split at h
    · split at h <;> cases h
    · cases h

/-- Writes all bytes, trying again after each interruption. -/
def writeAll (w : Writer) (bytes : List UInt8) : Except IoFault Unit × Writer :=
  if bytes = [] then (.ok (), w)
  else
    match h : w.write bytes with
    | (.interrupted, w') => writeAll w' bytes
    | (.failed cause, w') => (.error cause, w')
    | (.wrote 0, w') => (.error .nothingWritten, w')
    | (.wrote (count + 1), w') => writeAll w' (bytes.drop (count + 1))
termination_by (bytes.length, w.delay)
decreasing_by
  · obtain ⟨hbefore, hafter⟩ := write_interrupted h
    apply Prod.Lex.right
    omega
  · apply Prod.Lex.left
    rename_i hne
    have := List.length_pos_iff.2 hne
    rw [List.length_drop]
    omega

/-- Flushes. -/
def flush (w : Writer) : Except IoFault Unit × Writer :=
  let w' := { w with calls := .flush :: w.calls }
  if w.script.flushFails then (.error (.described "flush failed"), w') else (.ok (), w')

/-! ## What writing appends -/

/-- One write appends a part of the bytes, from their beginning. -/
theorem stored_write (w : Writer) (bytes : List UInt8) :
    ∃ taken, taken <+: bytes ∧ (w.write bytes).2.stored = w.stored ++ taken := by
  unfold write count
  split
  · exact ⟨[], List.nil_prefix, by simp [stored]⟩
  · split
    · split <;> exact ⟨[], List.nil_prefix, by simp [stored]⟩
    · rename_i most _ _
      refine ⟨bytes.take (min (min bytes.length most) (w.room bytes.length)),
        List.take_prefix _ _, ?_⟩
      simp [stored]

end Writer

end EventLog
