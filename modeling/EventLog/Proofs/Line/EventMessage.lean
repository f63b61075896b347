import EventLog.Event.Basic
import EventLog.Proofs.Line.Rendered

/-!
# JSON messages of events

The JSON message of an event has one member for the tag and one for each field, in their
order, whatever the path of a request is.

Main results:

- `Line.object_line`: the object of an event.
- `Line.jsonMessage_build`: the JSON message of an event that is built from arguments.
-/

namespace EventLog

/-! ## Fields of events -/

/-- The numbers of the tags have sixty-four bits. -/
theorem Tag.number_le (t : Tag) : t.number ≤ Decimal.max64 := by
  cases t <;> decide

namespace Event

/-- The fields of an event have the names of its kind. -/
theorem names_fields (e : Event) : e.fields.map Field.name = fieldNames e.tag := by
  cases e with
  | generic header => rfl
  | request header uniqueId path => rfl

/-- The names of fields are keys, no two of them are equal, and none is the key of the tag. -/
theorem fieldNames_keys (t : Tag) :
    (∀ name ∈ fieldNames t, Field.isName name = true) ∧ ("tag".toList :: fieldNames t).Nodup := by
  cases t with
  | generic => decide
  | request => decide

/-- The numbers in an event have sixty-four bits. -/
theorem number_le_of_mem_fields {e : Event} {f : Field} (hf : f ∈ e.fields) {n : Nat}
    (hn : f.value = .number n) : n ≤ Decimal.max64 := by
  have h64 : ∀ m : UInt64, m.toNat ≤ Decimal.max64 := by
    intro m
    exact Nat.le_pred_of_lt m.toNat_lt
  have h32 : ∀ m : UInt32, m.toNat ≤ Decimal.max64 := by
    intro m
    exact Nat.le_trans (Nat.le_pred_of_lt m.toNat_lt) (by decide)
  have h16 : ∀ m : UInt16, m.toNat ≤ Decimal.max64 := by
    intro m
    exact Nat.le_trans (Decimal.toNat_le_max16 m) Decimal.max16_le_max64
  have hheader : ∀ header : Header, f ∈ header.fields → n ≤ Decimal.max64 := by
    intro header hmem
    simp only [Header.fields, List.mem_cons, List.not_mem_nil, or_false] at hmem
    rcases hmem with rfl | rfl | rfl | rfl | rfl | rfl | rfl
    · cases hn
    · exact FieldValue.number.inj hn ▸ h64 _
    · exact FieldValue.number.inj hn ▸ h32 _
    · exact FieldValue.number.inj hn ▸ h32 _
    · exact FieldValue.number.inj hn ▸ h16 _
    · exact FieldValue.number.inj hn ▸ h16 _
    · exact FieldValue.number.inj hn ▸ h16 _
  rcases List.mem_append.1 hf with hmem | hmem
  · exact hheader e.header hmem
  · cases e with
    | generic header => simp [bodyFields] at hmem
    | request header uniqueId path =>
        simp only [bodyFields, List.mem_cons, List.not_mem_nil, or_false] at hmem
        rcases hmem with rfl | rfl
        · exact FieldValue.number.inj hn ▸ h64 _
        · cases hn

/-- The fields of an event are well-formed. -/
theorem isWellFormed_fields (e : Event) : ∀ f ∈ e.fields, f.IsWellFormed := by
  intro f hf
  have hname : f.name ∈ fieldNames e.tag := by
    rw [← names_fields]
    exact List.mem_map_of_mem hf
  constructor
  · exact (fieldNames_keys e.tag).1 f.name hname
  · intro n hn
    exact number_le_of_mem_fields hf hn

end Event

/-! ## Messages -/

namespace Line

/-- The object of an event: the tag, then the fields. -/
theorem object_line (e : Event) :
    object e.line = ("tag".toList, .number e.tag.number) :: e.fields.map Field.toMember := by
  have hkeys : ((("tag".toList, Json.Value.number e.tag.number) ::
      e.fields.map Field.toMember).map Prod.fst).Nodup := by
    have hnames : (e.fields.map Field.toMember).map Prod.fst = Event.fieldNames e.tag := by
      rw [← Event.names_fields, List.map_map]
      rfl
    rw [List.map_cons, hnames]
    exact (Event.fieldNames_keys e.tag).2
  rw [Event.line, object_lineOf e.tag.number_le (Event.isWellFormed_fields e),
    Json.Object.firstWins_of_nodup hkeys]

/-- The members that the arguments of every event stand for, behind the number of its tag. -/
def headerMembers (number : Nat) : HeaderArgs → Json.Object
  | (severity, timestamp, threadId, requestId, classId, methodId, schemaVersion) =>
    [("tag".toList, .number number),
     ("severity".toList, .text severity.name.toList),
     ("timestamp".toList, .number timestamp.toNat),
     ("thread_id".toList, .number threadId.toNat),
     ("request_id".toList, .number requestId.toNat),
     ("class_id".toList, .number classId.toNat),
     ("method_id".toList, .number methodId.toNat),
     ("schema_version".toList, .number schemaVersion.toNat)]

/-- The JSON message of an event that is built from arguments has the members that these stand
for, in their order, and no others; the path is cut to the longest prefix that fits into its
bytes. -/
theorem jsonMessage_build :
    (∀ args : HeaderArgs,
      jsonMessage (Event.build .generic args).line = (headerMembers 0 args).write) ∧
    ∀ (severity : Severity) (timestamp : UInt64) (threadId requestId : UInt32)
      (classId methodId schemaVersion : UInt16) (uniqueId : UInt64) (path : Text),
      ∃ kept, kept <+: path ∧ Text.byteLength kept ≤ 128 ∧
        (∀ other, other <+: path → Text.byteLength other ≤ 128 → other <+: kept) ∧
        jsonMessage (Event.build .request (severity, timestamp, threadId, requestId, classId,
            methodId, schemaVersion, uniqueId, InlineText.ofText path)).line =
          Json.Object.write
            (headerMembers 1
                (severity, timestamp, threadId, requestId, classId, methodId, schemaVersion) ++
              [("req_unique_id".toList, .number uniqueId.toNat), ("path".toList, .text kept)]) := by
  constructor
  · intro args
    rw [jsonMessage, object_line]
    rfl
  · intro severity timestamp threadId requestId classId methodId schemaVersion uniqueId path
    refine ⟨(InlineText.ofText path : RequestPath).text, InlineText.text_ofText_isPrefix path,
      InlineText.fits _, ?_, ?_⟩
    · intro other hprefix hlength
      exact InlineText.isPrefix_text_ofText hprefix hlength
    · rw [jsonMessage, object_line]
      rfl

end Line

end EventLog
