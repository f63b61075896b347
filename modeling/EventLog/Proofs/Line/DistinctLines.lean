import Mathlib.Tactic.TFAE
import EventLog.Proofs.Event.Equality
import EventLog.Proofs.Names
import EventLog.Proofs.Line.NamedLine

/-!
# Lines of different events

Different events have different lines, and different text messages too.  A text message is
itself a rendered line, with texts for the numbers that have names.  So it can be read back, and
a text is never taken for a number that has no name.

Main results:

- `Line.textMessage_eq_lineOf`: a text message is the rendered line of named fields.
- `Event.eq_of_namedMembers`: the named fields of an event determine it.
- `Line.tfae_line`: events are equal when their lines are, or their text messages.
-/

namespace EventLog

/-! ## Values with names -/

namespace FieldValue

/-- The value that stands for a number: its name as a text, or the number if it has none. -/
def named (name? : Nat → Option String) (n : Nat) : FieldValue :=
  match name? n with
  | some name => .text name.toList
  | none => .number n

variable {name? : Nat → Option String}

/-- A value that may be a name is rendered as it is shown. -/
theorem render_named (h : IsNaming name?) (n : Nat) :
    (named name? n).render = Line.shown name? n := by
  unfold named Line.shown
  cases hname : name? n with
  | none => rfl
  | some name => simp [render, Quoted.encode, h.bare n name hname]

/-- A number that has no name stands for itself. -/
theorem eq_of_named_eq_number {n m : Nat} (h : named name? n = .number m) : m = n := by
  unfold named at h
  cases hname : name? n with
  | none =>
      rw [hname] at h
      exact (number.inj h).symm
  | some name =>
      rw [hname] at h
      cases h

/-- What stands for a number determines it. -/
theorem named_injective (h : IsNaming name?) {m n : Nat}
    (heq : (named name? m).toJson = (named name? n).toJson) : m = n := by
  unfold named at heq
  cases hm : name? m with
  | none =>
      cases hn : name? n with
      | none => simpa [hm, hn, toJson] using heq
      | some other => simp [hm, hn, toJson] at heq
  | some name =>
      cases hn : name? n with
      | none => simp [hm, hn, toJson] at heq
      | some other =>
          have hsame : name = other := by
            apply String.toList_inj.1
            simpa [hm, hn, toJson] using heq
          exact h.injective m n name hm (hsame ▸ hn)

end FieldValue

/-! ## Named fields -/

namespace Event

open FieldValue

/-- The fields of an event with names for its class and its method, if they have one. -/
def namedFields (e : Event) : List Field :=
  e.fieldsWith (named className? e.header.classId.toNat)
    (named methodName? e.header.methodId.toNat)

/-- The named fields are well-formed. -/
theorem isWellFormed_namedFields (e : Event) : ∀ f ∈ e.namedFields, f.IsWellFormed := by
  have hnamed : ∀ (key : Text) (name? : Nat → Option String) (id : UInt16),
      Field.isName key = true → (⟨key, named name? id.toNat⟩ : Field).IsWellFormed := by
    intro key name? id hkey
    refine ⟨hkey, ?_⟩
    intro n hn
    rw [eq_of_named_eq_number hn]
    exact Nat.le_trans (Decimal.toNat_le_max16 id) Decimal.max16_le_max64
  intro f hf
  rcases List.mem_append.1 hf with hlead | hrest
  · exact isWellFormed_fields e f (List.mem_append_left _ (List.mem_of_mem_take hlead))
  rcases List.mem_cons.1 hrest with rfl | hrest
  · exact hnamed Line.classKey className? e.header.classId (by decide)
  rcases List.mem_cons.1 hrest with rfl | hrest
  · exact hnamed Line.methodKey methodName? e.header.methodId (by decide)
  rcases List.mem_append.1 hrest with hheader | hbody
  · exact isWellFormed_fields e f (List.mem_append_left _ (List.mem_of_mem_drop hheader))
  · exact isWellFormed_fields e f (List.mem_append_right _ hbody)

/-- The fields of the body stand behind those of the header. -/
theorem namedFields_eq_append (e : Event) :
    e.namedFields = (generic e.header).namedFields ++ e.bodyFields := by
  simp [namedFields, fieldsWith, header, bodyFields]

/-- The members of its named fields determine a header. -/
theorem header_eq_of_namedMembers {h k : Header}
    (heq : (generic h).namedFields.map Field.toMember =
      (generic k).namedFields.map Field.toMember) : h = k := by
  have hname : ∀ a b : Severity, a.name.toList = b.name.toList → a = b := by
    intro a b
    cases a <;> cases b <;> decide
  rcases h with ⟨severity, timestamp, threadId, requestId, classId, methodId, schemaVersion⟩
  rcases k with ⟨severity', timestamp', threadId', requestId', classId', methodId',
    schemaVersion'⟩
  simp only [namedFields, fieldsWith, header, bodyFields, Header.fields, List.take_succ_cons,
    List.take_zero, List.drop_succ_cons, List.drop_zero, List.cons_append, List.nil_append,
    List.map_cons, List.map_nil, Field.toMember, List.cons.injEq, Prod.mk.injEq, true_and,
    and_true] at heq
  rcases heq with ⟨hseverity, htimestamp, hthread, hrequest, hclass, hmethod, hversion⟩
  cases hname severity severity' (Json.Value.text.inj hseverity)
  cases UInt64.toNat_inj.1 (Json.Value.number.inj htimestamp)
  cases UInt32.toNat_inj.1 (Json.Value.number.inj hthread)
  cases UInt32.toNat_inj.1 (Json.Value.number.inj hrequest)
  cases UInt16.toNat_inj.1 (named_injective isNaming_className hclass)
  cases UInt16.toNat_inj.1 (named_injective isNaming_methodName hmethod)
  cases UInt16.toNat_inj.1 (Json.Value.number.inj hversion)
  rfl

/-- The members of its named fields and the number of its tag determine an event. -/
theorem eq_of_namedMembers {p q : Event} (htag : p.tag.number = q.tag.number)
    (h : p.namedFields.map Field.toMember = q.namedFields.map Field.toMember) : p = q := by
  -- the headers have equally many fields, so that the bodies start at one place
  rw [namedFields_eq_append, namedFields_eq_append q, List.map_append, List.map_append] at h
  rcases List.append_inj h rfl with ⟨hheader, hbody⟩
  have hheaders := header_eq_of_namedMembers hheader
  cases p with
  | generic header =>
      cases q with
      | generic other => exact congrArg generic hheaders
      | request other uniqueId path => cases htag
  | request header uniqueId path =>
      cases q with
      | generic other => cases htag
      | request other otherId otherPath =>
          simp only [bodyFields, List.map_cons, List.map_nil, Field.toMember, toJson,
            List.cons.injEq, Prod.mk.injEq, true_and, and_true, Json.Value.number.injEq,
            Json.Value.text.injEq, UInt64.toNat_inj] at hbody
          have hsame : header = other := hheaders
          rw [hsame, hbody.1, InlineText.ext hbody.2]

end Event

/-! ## Lines -/

namespace Line

/-- The text message of an event is the rendered line of its named fields. -/
theorem textMessage_eq_lineOf (e : Event) :
    textMessage e.line = Event.lineOf e.tag.number e.namedFields := by
  rw [textMessage_eq_lineWith, Event.namedFields, Event.lineOf_fieldsWith,
    FieldValue.render_named isNaming_className,
    FieldValue.render_named isNaming_methodName]

/-- Events with one text message are equal. -/
theorem eq_of_textMessage_eq {p q : Event} (h : textMessage p.line = textMessage q.line) :
    p = q := by
  -- both messages are rendered lines, so the members that they name can be compared
  have hmembers := congrArg members h
  rw [textMessage_eq_lineOf, textMessage_eq_lineOf,
    members_lineOf p.tag.number_le p.isWellFormed_namedFields,
    members_lineOf q.tag.number_le q.isWellFormed_namedFields] at hmembers
  rcases List.cons.inj hmembers with ⟨htag, hfields⟩
  have htags : p.tag.number = q.tag.number := by simpa using htag
  exact Event.eq_of_namedMembers htags hfields

/-- Events are of one kind and compare equal exactly when they have one line, and exactly when
they have one text message. -/
theorem tfae_line (p q : Event) :
    [p.tag = q.tag ∧ (p == q) = true, p.line = q.line,
      textMessage p.line = textMessage q.line].TFAE := by
  tfae_have 1 → 2 := by
    rintro ⟨-, hequal⟩
    rw [Event.beq_iff_eq.1 hequal]
  tfae_have 2 → 3 := fun hline => congrArg textMessage hline
  tfae_have 3 → 1 := by
    intro hmessage
    cases eq_of_textMessage_eq hmessage
    exact ⟨rfl, Event.beq_iff_eq.2 rfl⟩
  tfae_finish

end Line

end EventLog
