import Mathlib.Data.List.DropRight
import EventLog.Text.Basic

/-!
# Trimming

Main results:

- `Text.trim_eq_iff`: a trimmed text is the part between the blanks at both ends.
-/

namespace EventLog

namespace Text

/-- The text `t` is `s` without the blanks at both ends. -/
structure IsTrimmed (s t : Text) : Prop where
  around : ∃ front back, s = front ++ (t ++ back) ∧ (∀ c ∈ front, isBlank c = true) ∧
    ∀ c ∈ back, isBlank c = true
  head : ∀ c ∈ t.head?, isBlank c = false
  last : ∀ c ∈ t.getLast?, isBlank c = false

theorem trim_eq_rdropWhile (s : Text) : trim s = (s.dropWhile isBlank).rdropWhile isBlank := rfl

theorem isTrimmed_trim (s : Text) : IsTrimmed s (trim s) := by
  rw [trim_eq_rdropWhile]
  have hfront := List.head?_dropWhile_not isBlank s
  have hsplit := List.takeWhile_append_dropWhile (p := isBlank) (l := s)
  generalize s.dropWhile isBlank = rest at hfront hsplit ⊢
  refine ⟨⟨s.takeWhile isBlank, rest.rtakeWhile isBlank, ?_, ?_, ?_⟩, ?_, ?_⟩
  · rw [List.rdropWhile_append_rtakeWhile, hsplit]
  · intro c hc
    exact List.mem_takeWhile_imp hc
  · intro c hc
    exact List.mem_rtakeWhile_imp hc
  · intro c hc
    rcases List.rdropWhile_prefix isBlank rest with ⟨back, hback⟩
    have hhead : rest.head? = some c := by
      rw [← hback, List.head?_append, Option.mem_def.1 hc]
      rfl
    simpa [hhead] using hfront
  · intro c hc
    rcases List.getLast?_eq_some_iff.1 hc with ⟨before, hbefore⟩
    have hne : rest.rdropWhile isBlank ≠ [] := by simp [hbefore]
    have hlast := List.rdropWhile_last_not isBlank rest hne
    simpa [hbefore] using hlast

/-- What stands between the blanks at both ends is what is left. -/
theorem IsTrimmed.trim_eq {s t : Text} (h : IsTrimmed s t) : trim s = t := by
  rcases h.around with ⟨front, back, rfl, hfront, hback⟩
  rw [trim_eq_rdropWhile, List.dropWhile_append_of_pos hfront]
  cases t with
  | nil =>
      have hnone : back.dropWhile isBlank = [] := List.dropWhile_eq_nil_iff.2 hback
      rw [List.nil_append, hnone, List.rdropWhile_nil]
  | cons c t =>
      have hhead : isBlank c = false := h.head c rfl
      have hlast : (c :: t).rdropWhile isBlank = c :: t := by
        rw [List.rdropWhile_eq_self_iff]
        intro hne
        rw [h.last _ (List.getLast?_eq_some_getLast hne)]
        exact Bool.false_ne_true
      have hreverse : ∀ d ∈ back.reverse, isBlank d = true := by
        intro d hd
        exact hback d (List.mem_reverse.1 hd)
      rw [List.cons_append, List.dropWhile_cons_of_neg (by simp [hhead]), ← List.cons_append,
        List.rdropWhile, List.reverse_append, List.dropWhile_append_of_pos hreverse]
      exact hlast

/-- A trimmed text is the part between the blanks at both ends. -/
theorem trim_eq_iff {s t : Text} : trim s = t ↔ IsTrimmed s t := by
  constructor
  · rintro rfl
    exact isTrimmed_trim s
  · exact IsTrimmed.trim_eq

end Text

end EventLog
