import EventLog.Text.Decimal

/-!
# Reading decimal numbers back

Main results:

- `Decimal.read?_write`: a number within the bound reads back.
- `Decimal.read?_eq_some_iff`: exactly the texts that denote a number within the bound are read.
-/

namespace EventLog

namespace Decimal

/-! ## The written form -/

theorem isDigit_of_mem_write {n : Nat} {c : Char} (h : c ∈ write n) : c.isDigit = true :=
  Nat.isDigit_of_mem_toDigits (by decide) (by decide) h

theorem write_ne_nil (n : Nat) : write n ≠ [] :=
  Nat.toDigits_ne_nil

/-- A character that is no digit does not stand in a number. -/
theorem ne_of_mem_write {n : Nat} {c d : Char} (h : c ∈ write n) (hd : d.isDigit = false) :
    c ≠ d := by
  rintro rfl
  rw [isDigit_of_mem_write h] at hd
  cases hd

/-- A number other than zero is written without a zero in front. -/
theorem head?_write_ne {n : Nat} (h : n ≠ 0) : (write n).head? ≠ some '0' := by
  induction n using Nat.strongRecOn with
  | ind n ih =>
      rcases Nat.lt_or_ge n 10 with hsmall | hlarge
      · have hdigit : ∀ d : Fin 10, d.val ≠ 0 → Nat.digitChar d.val ≠ '0' := by decide
        rw [write, Nat.toDigits_of_lt_base hsmall]
        simpa using hdigit ⟨n, hsmall⟩ h
      · have htens : (write (n / 10)).head? ≠ some '0' := ih (n / 10) (by omega) (by omega)
        cases htail : write (n / 10) with
        | nil => exact absurd htail (write_ne_nil (n / 10))
        | cons c s =>
            rw [write, Nat.toDigits_of_base_le (by decide) hlarge, ← write, htail]
            rw [htail] at htens
            exact htens

/-! ## Bounds -/

theorem toNat_le_max16 (n : UInt16) : n.toNat ≤ max16 :=
  Nat.le_pred_of_lt n.toNat_lt

theorem max16_le_max64 : max16 ≤ max64 := by decide

/-! ## Reading -/

/-- A run of digits continues a number by its own value. -/
theorem continue?_of_digits {s : Text} (h : ∀ c ∈ s, c.isDigit = true) (value : Nat) :
    continue? value s = some (Nat.ofDigitChars 10 s value) := by
  induction s generalizing value with
  | nil => simp [continue?]
  | cons c s ih =>
      have hc : c.isDigit = true := h c List.mem_cons_self
      have hs : ∀ d ∈ s, d.isDigit = true := by
        intro d hd
        exact h d (List.mem_cons_of_mem c hd)
      rw [continue?, if_pos hc, ih hs, Nat.ofDigitChars_cons, Nat.mul_comm]

/-- The digits of a number read back. -/
theorem digits?_write (n : Nat) : digits? (write n) = some n := by
  have hdigits : ∀ c ∈ write n, c.isDigit = true := by
    intro c hc
    exact isDigit_of_mem_write hc
  have hvalue : continue? 0 (write n) = some n := by
    rw [continue?_of_digits hdigits, write, Nat.ofDigitChars_ten_toDigits]
  cases hwrite : write n with
  | nil => exact absurd hwrite (write_ne_nil n)
  | cons c s =>
      rw [hwrite] at hvalue
      exact hvalue

/-- A number within the bound reads back. -/
theorem read?_write {n bound : Nat} (h : n ≤ bound) : read? bound (write n) = some n := by
  have hdigits := digits?_write n
  unfold read?
  split
  next rest hplus =>
    have hmem : '+' ∈ write n := by
      rw [hplus]
      exact List.mem_cons_self
    exact absurd rfl (ne_of_mem_write hmem (by decide))
  next => simp [hdigits, h]

/-! ## What is read -/

/-- The text denotes a number: by digits, leading zeros included, perhaps behind a plus sign. -/
def Denotes (s : Text) (n : Nat) : Prop :=
  ∃ digits, (s = digits ∨ s = '+' :: digits) ∧ digits ≠ [] ∧ (∀ c ∈ digits, c.isDigit = true) ∧
    Nat.ofDigitChars 10 digits 0 = n

/-- What stands in a number is a digit or the sign. -/
theorem Denotes.ne_of_mem {s : Text} {n : Nat} (h : Denotes s n) {c d : Char} (hc : c ∈ s)
    (hd : d.isDigit = false) (hplus : d ≠ '+') : c ≠ d := by
  rintro rfl
  rcases h with ⟨digits, hs, -, hall, -⟩
  have hmem : c ∈ digits := by
    rcases hs with rfl | rfl
    · exact hc
    · exact (List.mem_cons.1 hc).resolve_left hplus
  rw [hall c hmem] at hd
  cases hd

/-- Only digits continue a number. -/
theorem isDigit_of_continue? {s : Text} {value n : Nat} (h : continue? value s = some n) :
    ∀ c ∈ s, c.isDigit = true := by
  induction s generalizing value with
  | nil => simp
  | cons c s ih =>
      rw [continue?] at h
      split at h
      next hc =>
        intro d hd
        rcases List.mem_cons.1 hd with rfl | hd
        · exact hc
        · exact ih h d hd
      next => cases h

theorem digits?_eq_some_iff {s : Text} {n : Nat} : digits? s = some n ↔
    s ≠ [] ∧ (∀ c ∈ s, c.isDigit = true) ∧ Nat.ofDigitChars 10 s 0 = n := by
  have hdigits : s ≠ [] → digits? s = continue? 0 s := by
    intro hne
    cases s with
    | nil => exact absurd rfl hne
    | cons c s => rfl
  constructor
  · intro h
    have hne : s ≠ [] := by
      rintro rfl
      cases h
    rw [hdigits hne] at h
    have hall := isDigit_of_continue? h
    rw [continue?_of_digits hall] at h
    exact ⟨hne, hall, Option.some.inj h⟩
  · rintro ⟨hne, hall, rfl⟩
    rw [hdigits hne, continue?_of_digits hall]

theorem denotes_plus_iff {s : Text} {n : Nat} : Denotes ('+' :: s) n ↔ digits? s = some n := by
  rw [digits?_eq_some_iff]
  constructor
  · rintro ⟨digits, hs, hne, hall, hvalue⟩
    rcases hs with hs | hs
    · -- the sign is no digit
      exact absurd (hall '+' (hs ▸ List.mem_cons_self)) (by decide)
    · cases hs
      exact ⟨hne, hall, hvalue⟩
  · rintro ⟨hne, hall, hvalue⟩
    exact ⟨s, Or.inr rfl, hne, hall, hvalue⟩

theorem denotes_iff_of_ne_plus {s : Text} (h : ∀ rest, s ≠ '+' :: rest) {n : Nat} :
    Denotes s n ↔ digits? s = some n := by
  rw [digits?_eq_some_iff]
  constructor
  · rintro ⟨digits, hs, hne, hall, hvalue⟩
    rcases hs with rfl | hs
    · exact ⟨hne, hall, hvalue⟩
    · exact absurd hs (h digits)
  · rintro ⟨hne, hall, hvalue⟩
    exact ⟨s, Or.inl rfl, hne, hall, hvalue⟩

/-- Exactly the texts that denote a number within the bound are read. -/
theorem read?_eq_some_iff {bound n : Nat} {s : Text} :
    read? bound s = some n ↔ Denotes s n ∧ n ≤ bound := by
  unfold read?
  split
  next rest => rw [denotes_plus_iff, Option.filter_eq_some_iff, decide_eq_true_iff]
  next hplus => rw [denotes_iff_of_ne_plus hplus, Option.filter_eq_some_iff, decide_eq_true_iff]

end Decimal

end EventLog
