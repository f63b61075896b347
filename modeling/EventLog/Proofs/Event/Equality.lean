import EventLog.Event.Basic

/-!
# Equality of events

Two events compare equal only if they are the same event.  Paths are compared by all their bytes
in memory; these spell the text, and behind it there is nothing that could differ.

Main results:

- `Text.utf8_injective`: the bytes of a text determine it.
- `InlineText.beq_iff_eq`: inline texts compare equal exactly when they are equal.
- `Event.beq_iff_eq`: events compare equal exactly when they are equal.
-/

namespace EventLog

/-- The bytes of a text determine it. -/
theorem Text.utf8_injective {s t : Text} (h : utf8 s = utf8 t) : s = t := by
  have hbytes : (String.ofList s).toByteArray = (String.ofList t).toByteArray := by
    rw [String.toByteArray_ofList, String.toByteArray_ofList]
    exact congrArg List.toByteArray h
  exact String.ofList_inj.1 (String.toByteArray_inj.1 hbytes)

namespace InlineText

variable {capacity : Nat}

/-- Inline texts of one text are equal. -/
@[ext] theorem ext {a b : InlineText capacity} (h : a.text = b.text) : a = b := by
  cases a
  cases b
  cases h
  rfl

/-- Inline texts that use equally many bytes and agree in all of them have one text. -/
theorem eq_of_bytes_eq {a b : InlineText capacity} (hlength : a.length = b.length)
    (hbytes : a.bytes = b.bytes) : a = b := by
  -- the bytes in use are equally many, so the zeros behind them are split off at one place
  have hused : (Text.utf8 a.text).length = (Text.utf8 b.text).length := by
    rw [Text.length_utf8, Text.length_utf8]
    exact hlength
  ext1
  exact Text.utf8_injective (List.append_inj_left hbytes hused)

theorem beq_iff_eq {a b : InlineText capacity} : (a == b) = true ↔ a = b := by
  constructor
  · intro h
    rcases Bool.and_eq_true_iff.1 h with ⟨hlength, hbytes⟩
    exact eq_of_bytes_eq (eq_of_beq hlength) (eq_of_beq hbytes)
  · rintro rfl
    exact Bool.and_eq_true_iff.2 ⟨beq_self_eq_true _, beq_self_eq_true _⟩

instance : LawfulBEq (InlineText capacity) where
  eq_of_beq := beq_iff_eq.1
  rfl := beq_iff_eq.2 rfl

end InlineText

namespace Event

@[simp] theorem generic_beq_generic (header other : Header) :
    (generic header == generic other) = (header == other) := rfl

@[simp] theorem request_beq_request (header other : Header) (uniqueId otherId : UInt64)
    (path otherPath : RequestPath) :
    (request header uniqueId path == request other otherId otherPath) =
      (header == other && (uniqueId == otherId && path == otherPath)) := rfl

@[simp] theorem generic_beq_request (header other : Header) (uniqueId : UInt64)
    (path : RequestPath) : (generic header == request other uniqueId path) = false := rfl

@[simp] theorem request_beq_generic (header other : Header) (uniqueId : UInt64)
    (path : RequestPath) : (request header uniqueId path == generic other) = false := rfl

/-- Events compare equal exactly when they are equal. -/
theorem beq_iff_eq {p q : Event} : (p == q) = true ↔ p = q := by
  cases p with
  | generic header =>
      cases q with
      | generic other => simp
      | request other uniqueId path => simp
  | request header uniqueId path =>
      cases q with
      | generic other => simp
      | request other otherId otherPath => simp

end Event

end EventLog
