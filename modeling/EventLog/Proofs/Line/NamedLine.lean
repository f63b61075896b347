import EventLog.Proofs.Line.EventMessage
import EventLog.Proofs.Line.Naming

/-!
# Text messages of events

The text message of an event is its line with names in two places: the number of the class and
the number of the method in the header, each if it is registered.  A path that looks like such a
field is further behind and is never reached.

Main results:

- `Line.nameFirst_number`: the number in the first token with a key gets a name.
- `Line.textMessage_line`: the text message of an event.
-/

namespace EventLog

namespace Line

/-! ## Giving names to tokens -/

/-- What stands for a number: its name, or its digits if it has none. -/
def shown (name? : Nat → Option String) (n : Nat) : Text :=
  match name? n with
  | some name => name.toList
  | none => Decimal.write n

/-- A number under the key becomes its name, if it has one. -/
theorem nameFirst_number {key : Text} (h : '=' ∉ key) {n : Nat} (hn : n ≤ Decimal.max16)
    (name? : Nat → Option String) (ps : List Piece) :
    nameFirst key name? (spaced (key ++ '=' :: Decimal.write n) :: ps) =
      spaced (key ++ '=' :: shown name? n) :: ps := by
  have hnamed : named name? (Decimal.write n) = shown name? n := by
    rw [named, resolve?, Decimal.read?_write hn, Option.bind_some, shown]
    cases name? n with
    | none => rfl
    | some name => rfl
  rw [spaced, nameFirst_keyed h, hnamed, spaced]

/-- Spaced tokens of fields put together are the rendered fields. -/
theorem join_fields (fields : List Field) :
    join ((fields.map Field.token).map spaced) = Field.renderAll fields := by
  rw [join, List.map_map, List.flatMap_map]
  rfl

end Line

/-! ## The two places of names -/

namespace Event

open Line

/-- The fields of an event with other values for its class and its method. -/
def fieldsWith (e : Event) (classValue methodValue : FieldValue) : List Field :=
  e.header.fields.take 4 ++ ⟨classKey, classValue⟩ :: ⟨methodKey, methodValue⟩ ::
    (e.header.fields.drop 6 ++ e.bodyFields)

/-- The line of an event with other texts for the values of its class and its method. -/
def lineWith (e : Event) (classText methodText : Text) : Text :=
  lineOf e.tag.number (e.header.fields.take 4) ++
    "class_id=".toList ++ classText ++ " method_id=".toList ++ methodText ++ [' '] ++
      Field.renderAll (e.header.fields.drop 6 ++ e.bodyFields)

theorem fields_eq_fieldsWith (e : Event) :
    e.fields = e.fieldsWith (.number e.header.classId.toNat) (.number e.header.methodId.toNat) :=
  rfl

/-- Other values are rendered in the places of the class and the method. -/
theorem lineOf_fieldsWith (e : Event) (classValue methodValue : FieldValue) :
    lineOf e.tag.number (e.fieldsWith classValue methodValue) =
      e.lineWith classValue.render methodValue.render := by
  have hclass : "class_id=".toList = classKey ++ ['='] := rfl
  have hmethod : " method_id=".toList = ' ' :: (methodKey ++ ['=']) := rfl
  rw [lineWith, hclass, hmethod]
  simp [lineOf, fieldsWith, Field.renderAll, Field.render]

/-- The tokens in front of the class: the tag and the fields before it. -/
def leadTokens (e : Event) : List Text :=
  tagToken e.tag.number :: (e.header.fields.take 4).map Field.token

/-- The pieces of an event with other texts for the values of its class and its method. -/
def piecesWith (e : Event) (classText methodText : Text) : List Piece :=
  e.leadTokens.map spaced ++ spaced (classKey ++ '=' :: classText) ::
    spaced (methodKey ++ '=' :: methodText) ::
      ((e.header.fields.drop 6 ++ e.bodyFields).map Field.token).map spaced

/-- No token in front of the class has its key or that of the method. -/
theorem valueOf?_of_mem_leadTokens {e : Event} {t : Text} (h : t ∈ e.leadTokens) :
    valueOf? classKey t = none ∧ valueOf? methodKey t = none := by
  have hnames : ∀ name ∈ "[tag".toList :: (fieldNames .generic).take 4,
      '=' ∉ name ∧ name ≠ classKey ∧ name ≠ methodKey := by decide
  have hkeyed : ∀ name ∈ "[tag".toList :: (fieldNames .generic).take 4, ∀ value,
      valueOf? classKey (name ++ '=' :: value) = none ∧
        valueOf? methodKey (name ++ '=' :: value) = none := by
    intro name hname value
    rcases hnames name hname with ⟨hequals, hclass, hmethod⟩
    exact ⟨valueOf?_other hequals hclass value, valueOf?_other hequals hmethod value⟩
  rcases List.mem_cons.1 h with rfl | hfield
  · rw [tagToken_eq]
    exact hkeyed "[tag".toList List.mem_cons_self (Decimal.write e.tag.number ++ [']'])
  · rcases List.mem_map.1 hfield with ⟨f, hf, rfl⟩
    exact hkeyed f.name (List.mem_cons_of_mem _ (List.mem_map_of_mem hf)) f.value.render

/-- The pieces of the line of an event. -/
theorem pieces_line (e : Event) :
    pieces e.line =
      e.piecesWith (Decimal.write e.header.classId.toNat)
        (Decimal.write e.header.methodId.toNat) := by
  rw [line, pieces_lineOf e.tag.number (isWellFormed_fields e), fields_eq_fieldsWith, fieldsWith,
    piecesWith, leadTokens]
  simp [Field.token, FieldValue.render]

/-- The number of the class gets its name. -/
theorem nameFirst_class (e : Event) (methodText : Text) :
    nameFirst classKey className?
        (e.piecesWith (Decimal.write e.header.classId.toNat) methodText) =
      e.piecesWith (shown className? e.header.classId.toNat) methodText := by
  have hlead : ∀ p ∈ e.leadTokens.map spaced, valueOf? classKey p.token = none :=
    List.forall_mem_map.2 fun t ht => (valueOf?_of_mem_leadTokens ht).1
  rw [piecesWith, nameFirst_append hlead, nameFirst_number (by decide) (Decimal.toNat_le_max16 _)]
  rfl

/-- The number of the method gets its name; the class in front of it is passed, whatever its
value is. -/
theorem nameFirst_method (e : Event) (classText : Text) :
    nameFirst methodKey methodName?
        (e.piecesWith classText (Decimal.write e.header.methodId.toNat)) =
      e.piecesWith classText (shown methodName? e.header.methodId.toNat) := by
  have hclass : valueOf? methodKey (classKey ++ '=' :: classText) = none :=
    valueOf?_other (by decide) (by decide) classText
  -- the class, named or not, is one more token without the key
  have hlead : ∀ p ∈ (e.leadTokens ++ [classKey ++ '=' :: classText]).map spaced,
      valueOf? methodKey p.token = none := by
    refine List.forall_mem_map.2 ?_
    intro t ht
    rcases List.mem_append.1 ht with hmem | hmem
    · exact (valueOf?_of_mem_leadTokens hmem).2
    · rw [List.mem_singleton.1 hmem]
      exact hclass
  have hsplit : ∀ methodText, e.piecesWith classText methodText =
      (e.leadTokens ++ [classKey ++ '=' :: classText]).map spaced ++
        spaced (methodKey ++ '=' :: methodText) ::
          ((e.header.fields.drop 6 ++ e.bodyFields).map Field.token).map spaced := by
    intro methodText
    simp [piecesWith]
  rw [hsplit, hsplit, nameFirst_append hlead,
    nameFirst_number (by decide) (Decimal.toNat_le_max16 _)]

/-- The pieces put together are the line. -/
theorem join_piecesWith (e : Event) (classText methodText : Text) :
    join (e.piecesWith classText methodText) = e.lineWith classText methodText := by
  have hclass : "class_id=".toList = classKey ++ ['='] := rfl
  have hmethod : " method_id=".toList = ' ' :: (methodKey ++ ['=']) := rfl
  have happend : ∀ ps qs : List Piece, join (ps ++ qs) = join ps ++ join qs := by
    intro ps qs
    exact List.flatMap_append
  have hcons : ∀ (t : Text) (ps : List Piece), join (spaced t :: ps) = t ++ ' ' :: join ps := by
    intro t ps
    simp [join, spaced, Piece.text]
  rw [piecesWith, leadTokens, happend, List.map_cons, hcons, hcons, hcons, join_fields,
    join_fields, lineWith, hclass, hmethod, lineOf]
  simp

end Event

/-! ## The message -/

namespace Line

/-- The message of the line is the line with what is shown for the class and the method. -/
theorem textMessage_eq_lineWith (e : Event) :
    textMessage e.line =
      e.lineWith (shown className? e.header.classId.toNat)
        (shown methodName? e.header.methodId.toNat) := by
  rw [textMessage, Event.pieces_line, Event.nameFirst_class, Event.nameFirst_method,
    Event.join_piecesWith]

/-- The text message of an event is its line with the name of its class for the number of the
class and the name of its method for the number of the method, each if there is one.  Nothing
else in the line is changed. -/
theorem textMessage_line (e : Event) :
    e.line =
        e.lineWith (Decimal.write e.header.classId.toNat)
          (Decimal.write e.header.methodId.toNat) ∧
      textMessage e.line =
        e.lineWith (shown className? e.header.classId.toNat)
          (shown methodName? e.header.methodId.toNat) := by
  constructor
  · rw [← Event.join_piecesWith, ← Event.pieces_line, join_pieces]
  · exact textMessage_eq_lineWith e

end Line

end EventLog
