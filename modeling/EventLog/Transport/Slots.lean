import EventLog.Fault

/-!
# Record slots

Each record has room for one payload.  A payload is put into an empty record, read
while it is there, and destroyed in place, which leaves the record empty again.

Main results:

- `Slots.payload?_place` and `Slots.payload?_clear`: what the records hold after a
  payload was put in or destroyed.
-/

namespace EventLog

/-- What each record holds. -/
structure Slots (α : Type) where
  /-- The payload of each record, by index. -/
  held : Array (Option α)

namespace Slots

variable {α : Type}

/-- Empty records. -/
def blank (capacity : Nat) : Slots α := ⟨Array.replicate capacity none⟩

/-- The payload in a record. -/
def payload? (s : Slots α) (index : Nat) : Option α := s.held[index]?.join

/-- The record holds a payload. -/
def isOccupied (s : Slots α) (index : Nat) : Bool := (s.payload? index).isSome

/-- Puts a payload into a record, which has to be empty. -/
def place (s : Slots α) (index : Nat) (a : α) : Except Panic (Slots α) :=
  if s.isOccupied index then .error .recordOccupied
  else .ok ⟨s.held.setIfInBounds index (some a)⟩

/-- Empties a record. -/
def clear (s : Slots α) (index : Nat) : Slots α :=
  ⟨s.held.setIfInBounds index none⟩

/-- The payloads in all records, by index. -/
def payloads (s : Slots α) : List α := s.held.toList.filterMap id

/-- The number of records. -/
def size (s : Slots α) : Nat := s.held.size

/-- Filling a record keeps the number of records. -/
theorem size_place {s t : Slots α} {index : Nat} {a : α} (h : s.place index a = .ok t) :
    t.size = s.size := by
  unfold place at h
  split at h
  · cases h
  · cases h
    simp [size]

@[simp] theorem size_clear (s : Slots α) (index : Nat) : (s.clear index).size = s.size := by
  simp [clear, size]

/-- What the records hold after one of them was filled. -/
theorem payload?_place {s t : Slots α} {index : Nat} {a : α} (h : s.place index a = .ok t)
    (other : Nat) :
    t.payload? other =
      if other = index ∧ index < s.size then some a else s.payload? other := by
  unfold place at h
  split at h
  · cases h
  · cases h
    unfold payload? size
    rw [Array.getElem?_setIfInBounds]
    by_cases hi : index = other
    · subst hi
      by_cases hs : index < s.held.size
      · simp [hs]
      · simp [hs]
    · rw [if_neg hi, if_neg (fun h => hi h.1.symm)]

/-- What the records hold after one of them was emptied. -/
theorem payload?_clear (s : Slots α) (index other : Nat) :
    (s.clear index).payload? other = if other = index then none else s.payload? other := by
  unfold clear payload?
  rw [Array.getElem?_setIfInBounds]
  by_cases hi : index = other
  · subst hi
    by_cases hs : index < s.held.size
    · simp [hs]
    · simp [hs]
  · rw [if_neg hi, if_neg (fun h => hi h.symm)]

end Slots

end EventLog
