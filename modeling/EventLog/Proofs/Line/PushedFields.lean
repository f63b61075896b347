import EventLog.Proofs.Json.Reader
import EventLog.Proofs.Line.Rendered

/-!
# JSON messages of pushed fields

A line may be put together field by field behind any tag.  Its JSON message then says what was
pushed: a reader of JSON gets back the number of the tag and the fields in their order, each
number as this number and each severity and text as this string, and of fields with one name
the first.

Main results:

- `Field.foldl_push`: pushing fields one after the other appends their rendered forms.
- `Line.read?_jsonMessage_pushed`: the message of pushed fields read back.
-/

namespace EventLog

/-! ## Pushing fields -/

/-- Pushing fields one after the other appends their rendered forms. -/
theorem Field.foldl_push (fields : List Field) (out : Text) :
    fields.foldl push out = out ++ renderAll fields := by
  induction fields generalizing out with
  | nil => simp [renderAll]
  | cons f fields ih => rw [List.foldl_cons, ih]; simp [push, renderAll]

namespace Line

/-- The line of a tag and fields that are pushed behind it. -/
theorem foldl_push_tag (number : Nat) (fields : List Field) :
    fields.foldl Field.push ("[tag=".toList ++ Decimal.write number ++ "] ".toList) =
      Event.lineOf number fields := by
  have hclosing : "] ".toList = [']', ' '] := rfl
  rw [Field.foldl_push, hclosing, Event.lineOf, tagToken_eq]
  simp only [List.append_assoc, List.cons_append, List.nil_append]

/-! ## The message -/

/-- The message of a tag and the fields that are pushed behind it reads as the first-wins object
of the tag and the fields, and has no other member. -/
theorem read?_jsonMessage_pushed {number : Nat} (hnumber : number ≤ Decimal.max64)
    {fields : List Field} (h : ∀ f ∈ fields, f.IsWellFormed) :
    Json.read? (jsonMessage
        (fields.foldl Field.push ("[tag=".toList ++ Decimal.write number ++ "] ".toList))) =
      some (Json.Object.firstWins
        (("tag".toList, .number number) :: fields.map Field.toMember)) := by
  rw [foldl_push_tag, jsonMessage, object_lineOf hnumber h, Json.read?_write]

/-- Fields of which two have one name and one has the name of the tag.  The first ends in a
backslash, the second is a text of digits. -/
def sameNames : List Field :=
  [⟨"path".toList, .text "say \"hi\" a=1 \\".toList⟩, ⟨"n".toList, .text "42".toList⟩,
   ⟨"tag".toList, .number 7⟩, ⟨"path".toList, .text "other".toList⟩,
   ⟨"level".toList, .severity .warn⟩, ⟨"count".toList, .number Decimal.max64⟩]

theorem read?_jsonMessage_sameNames :
    3 ≤ Decimal.max64 ∧ (∀ f ∈ sameNames, f.IsWellFormed) ∧
      Json.read? (jsonMessage
          (sameNames.foldl Field.push ("[tag=".toList ++ Decimal.write 3 ++ "] ".toList))) =
        some [("tag".toList, .number 3), ("path".toList, .text "say \"hi\" a=1 \\".toList),
          ("n".toList, .text "42".toList), ("level".toList, .text "Warn".toList),
          ("count".toList, .number Decimal.max64)] := by
  have hnumber : 3 ≤ Decimal.max64 := by decide
  have hfields : ∀ f ∈ sameNames, f.IsWellFormed := by decide
  exact ⟨hnumber, hfields, read?_jsonMessage_pushed hnumber hfields⟩

end Line

end EventLog
