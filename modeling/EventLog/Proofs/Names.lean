import EventLog.Names
import EventLog.Proofs.Text.Quoted

/-!
# Tables of names

A name in a table stands in a line as it is, is no number, and belongs to one number only.

Main results:

- `isNaming_className` and `isNaming_methodName`: this is so for classes and for methods.
- `IsNaming.read?_eq_none`: a name does not read as a number.
-/

namespace EventLog

/-- The names of a table need no quotes, and no two numbers have the same name. -/
structure IsNaming (name? : Nat → Option String) : Prop where
  bare : ∀ n name, name? n = some name → Quoted.needsQuotes name.toList = false
  injective : ∀ m n name, name? m = some name → name? n = some name → m = n

/-- Names that a numbered vocabulary gives to its members. -/
theorem isNaming_map {Id : Type} {ofNumber? : Nat → Option Id} {number : Id → Nat}
    {name : Id → String} (hnumber : ∀ {n c}, ofNumber? n = some c → number c = n)
    (hbare : ∀ c, Quoted.needsQuotes (name c).toList = false)
    (hname : ∀ c d, name c = name d → c = d) : IsNaming fun n => (ofNumber? n).map name where
  bare := by
    intro n text h
    rcases Option.map_eq_some_iff.1 h with ⟨c, -, rfl⟩
    exact hbare c
  injective := by
    intro m n text hm hn
    rcases Option.map_eq_some_iff.1 hm with ⟨c, hc, rfl⟩
    rcases Option.map_eq_some_iff.1 hn with ⟨d, hd, hsame⟩
    rw [hname d c hsame] at hd
    rw [← hnumber hc, ← hnumber hd]

theorem isNaming_className : IsNaming className? := by
  apply isNaming_map ClassId.ofNumber?_eq_some_iff.1
  · intro c
    cases c <;> decide
  · intro c d
    cases c <;> cases d <;> decide

theorem isNaming_methodName : IsNaming methodName? := by
  apply isNaming_map MethodId.ofNumber?_eq_some_iff.1
  · intro c
    cases c <;> decide
  · intro c d
    cases c <;> cases d <;> decide

/-! ## Numbers with names -/

theorem le_max16_of_className? {n : Nat} {name : String} (h : className? n = some name) :
    n ≤ Decimal.max16 := by
  rcases Option.map_eq_some_iff.1 h with ⟨c, hc, -⟩
  rw [← ClassId.ofNumber?_eq_some_iff.1 hc]
  cases c <;> decide

theorem le_max16_of_methodName? {n : Nat} {name : String} (h : methodName? n = some name) :
    n ≤ Decimal.max16 := by
  rcases Option.map_eq_some_iff.1 h with ⟨m, hm, -⟩
  rw [← MethodId.ofNumber?_eq_some_iff.1 hm]
  cases m <;> decide

namespace IsNaming

variable {name? : Nat → Option String} {n : Nat} {name : String}

/-- Neither a quote nor a space stands in a name. -/
theorem ne_of_mem (h : IsNaming name?) (hname : name? n = some name) {c : Char}
    (hc : c ∈ name.toList) : c ≠ '"' ∧ c ≠ ' ' := by
  rcases (Quoted.needsQuotes_eq_false_iff.1 (h.bare n name hname)).2 c hc with
    ⟨hblank, hquote, -⟩
  refine ⟨hquote, ?_⟩
  rintro rfl
  exact absurd hblank (by decide)

/-- A name does not read as a number. -/
theorem read?_eq_none (h : IsNaming name?) (hname : name? n = some name) {bound : Nat}
    (hbound : bound ≤ Decimal.max64) : Decimal.read? bound name.toList = none := by
  have hnumber := (Quoted.needsQuotes_eq_false_iff.1 (h.bare n name hname)).1
  cases hread : Decimal.read? bound name.toList with
  | none => rfl
  | some m =>
      rcases Decimal.read?_eq_some_iff.1 hread with ⟨hdenotes, hle⟩
      rw [Decimal.read?_eq_some_iff.2 ⟨hdenotes, Nat.le_trans hle hbound⟩] at hnumber
      cases hnumber

end IsNaming

end EventLog
