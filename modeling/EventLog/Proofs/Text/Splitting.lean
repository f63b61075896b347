import Mathlib.Data.List.Basic
import EventLog.Text.Basic

/-!
# Splitting and framing

Main results:

- `Text.splitAtFirst?_eq_some_iff`: a text is split around its first mark.
- `Text.unframe?_eq_some_iff`: a frame is taken off exactly where it stands.
-/

namespace EventLog

namespace Text

/-- A text is split at a mark behind a part without it. -/
theorem splitAtFirst?_append {mark : Char} {s : Text} (h : mark ∉ s) (rest : Text) :
    splitAtFirst? mark (s ++ mark :: rest) = some (s, rest) := by
  induction s with
  | nil => simp [splitAtFirst?]
  | cons c s ih =>
      have hc : c ≠ mark := by
        rintro rfl
        exact h List.mem_cons_self
      have hs : mark ∉ s := by
        intro hmem
        exact h (List.mem_cons_of_mem c hmem)
      rw [List.cons_append, splitAtFirst?, if_neg hc, ih hs]
      rfl

/-- A text without the mark is not split. -/
theorem splitAtFirst?_eq_none_iff {mark : Char} {s : Text} :
    splitAtFirst? mark s = none ↔ mark ∉ s := by
  induction s with
  | nil => simp [splitAtFirst?]
  | cons c s ih =>
      by_cases hc : c = mark
      · simp [splitAtFirst?, hc]
      · simp [splitAtFirst?, hc, ih, Ne.symm hc]

/-- A text is split around its first mark. -/
theorem splitAtFirst?_eq_some_iff {mark : Char} {s a b : Text} :
    splitAtFirst? mark s = some (a, b) ↔ mark ∉ a ∧ s = a ++ mark :: b := by
  constructor
  · intro h
    have hmem : mark ∈ s := by
      apply Decidable.byContradiction
      intro hnot
      rw [splitAtFirst?_eq_none_iff.2 hnot] at h
      cases h
    -- the split that is found is the one around the first mark
    rcases List.eq_append_cons_of_mem hmem with ⟨before, rest, rfl, hbefore⟩
    rw [splitAtFirst?_append hbefore] at h
    cases h
    exact ⟨hbefore, rfl⟩
  · rintro ⟨hmark, rfl⟩
    exact splitAtFirst?_append hmark b

/-- A frame is taken off exactly where it stands. -/
theorem unframe?_eq_some_iff {opening s t : Text} {closing : Char} :
    unframe? opening closing s = some t ↔ s = opening ++ t ++ [closing] := by
  unfold unframe?
  constructor
  · intro h
    cases hrest : opening.isPrefixOf? s with
    | none => simp [hrest] at h
    | some rest =>
        have hs := List.isPrefixOf?_eq_some_iff_append_eq.1 hrest
        simp only [hrest] at h
        split at h
        next hlast =>
          rcases List.getLast?_eq_some_iff.1 hlast with ⟨inner, rfl⟩
          rw [List.dropLast_concat] at h
          obtain rfl : inner = t := Option.some.inj h
          rw [← hs, List.append_assoc]
        next => cases h
  · rintro rfl
    have hrest : opening.isPrefixOf? (opening ++ (t ++ [closing])) = some (t ++ [closing]) :=
      List.isPrefixOf?_eq_some_iff_append_eq.2 rfl
    rw [List.append_assoc, hrest]
    simp

end Text

end EventLog
