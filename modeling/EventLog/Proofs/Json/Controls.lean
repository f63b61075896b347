import EventLog.Json
import EventLog.Proofs.Text.Decimal

/-!
# Control characters in JSON

A written object holds no character below the space: in a string such a character is escaped, and
nothing else that is written is one.

Main result:

- `Json.Object.le_toNat_of_mem_write`: every character of a written object is at least the space.
-/

namespace EventLog

namespace Json

/-- What stands for one character in a string holds no character below the space. -/
theorem le_toNat_of_mem_escape {c d : Char} (h : d ∈ escape c) : 0x20 ≤ d.toNat := by
  have hdigit : ∀ n < 16, 0x20 ≤ (Nat.digitChar n).toNat := by decide
  have hpair : ∀ e : Char, 0x20 ≤ e.toNat → d ∈ ['\\', e] → 0x20 ≤ d.toNat := by
    intro e he hd
    rcases List.mem_cons.1 hd with rfl | hd
    · decide
    · rw [List.mem_singleton.1 hd]
      exact he
  unfold escape at h
  split at h
  · exact hpair '"' (by decide) h
  split at h
  · exact hpair '\\' (by decide) h
  split at h
  · exact hpair 'b' (by decide) h
  split at h
  · exact hpair 't' (by decide) h
  split at h
  · exact hpair 'n' (by decide) h
  split at h
  · exact hpair 'f' (by decide) h
  split at h
  · exact hpair 'r' (by decide) h
  split at h
  next hlow =>
    simp only [List.mem_cons, List.not_mem_nil, or_false] at h
    rcases h with rfl | rfl | rfl | rfl | rfl | rfl
    · decide
    · decide
    · decide
    · decide
    · exact hdigit (c.toNat / 16) (by omega)
    · exact hdigit (c.toNat % 16) (by omega)
  next hlow =>
    obtain rfl : d = c := List.mem_singleton.1 h
    exact Nat.le_of_not_lt hlow

theorem le_toNat_of_mem_writeText {s : Text} {d : Char} (h : d ∈ writeText s) :
    0x20 ≤ d.toNat := by
  rcases List.mem_append.1 h with hopen | hclose
  · rcases List.mem_cons.1 hopen with rfl | hinner
    · decide
    · rcases List.mem_flatMap.1 hinner with ⟨c, -, hc⟩
      exact le_toNat_of_mem_escape hc
  · obtain rfl : d = '"' := List.mem_singleton.1 hclose
    decide

theorem Value.le_toNat_of_mem_write {v : Value} {d : Char} (h : d ∈ v.write) :
    0x20 ≤ d.toNat := by
  cases v with
  | number n =>
      have hdigit : ∀ c : Char, c.isDigit = true → 0x20 ≤ c.toNat := by
        intro c hc
        exact Nat.le_trans (by decide) (Char.isDigit_iff_toNat.1 hc).1
      exact hdigit d (Decimal.isDigit_of_mem_write h)
  | text s => exact le_toNat_of_mem_writeText h

namespace Object

theorem le_toNat_of_mem_writeMember {m : Text × Value} {d : Char} (h : d ∈ writeMember m) :
    0x20 ≤ d.toNat := by
  rcases List.mem_append.1 h with hkey | hvalue
  · exact le_toNat_of_mem_writeText hkey
  · rcases List.mem_cons.1 hvalue with rfl | hvalue
    · decide
    · exact Value.le_toNat_of_mem_write hvalue

/-- Every character of a written object is at least the space. -/
theorem le_toNat_of_mem_write {o : Object} {d : Char} (h : d ∈ o.write) : 0x20 ≤ d.toNat := by
  have hmembers : ∀ d ∈ [','].intercalate (o.map writeMember), 0x20 ≤ d.toNat := by
    clear h
    induction o with
    | nil => simp
    | cons m o ih =>
        cases o with
        | nil =>
            intro d hd
            exact le_toNat_of_mem_writeMember (by simpa using hd)
        | cons m' o =>
            intro d hd
            rw [List.map_cons, List.map_cons, List.intercalate_cons_cons, ← List.map_cons] at hd
            rcases List.mem_append.1 hd with hd | hd
            · rcases List.mem_append.1 hd with hd | hd
              · exact le_toNat_of_mem_writeMember hd
              · obtain rfl : d = ',' := List.mem_singleton.1 hd
                decide
            · exact ih d hd
  rcases List.mem_append.1 h with hopen | hclose
  · rcases List.mem_cons.1 hopen with rfl | hinner
    · decide
    · exact hmembers d hinner
  · obtain rfl : d = '\x7d' := List.mem_singleton.1 hclose
    decide

end Object

end Json

end EventLog
