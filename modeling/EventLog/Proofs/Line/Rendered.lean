import EventLog.Event.Basic
import EventLog.Proofs.Line.Reading

/-!
# Reading rendered lines back

A line that is rendered from a tag and well-formed fields has one token for the tag and one
for each field, whatever the texts in the fields are, and each token stands for the member
that its field means: numbers for numbers, and strings for severities and texts.

Main results:

- `Line.pieces_lineOf`: the pieces of a rendered line.
- `Line.part_token`: the token of a field stands for what the field means.
- `Line.members_lineOf`: the members that a rendered line names.
- `Line.object_lineOf`: the object of a rendered line.
-/

namespace EventLog

/-! ## Well-formed fields -/

/-- The member value that a field value means. -/
def FieldValue.toJson : FieldValue → Json.Value
  | number n => .number n
  | severity s => .text s.name.toList
  | text s => .text s

namespace Field

/-- The token of a field. -/
def token (f : Field) : Text :=
  f.name ++ '=' :: f.value.render

/-- The member that a field means. -/
def toMember (f : Field) : Text × Json.Value :=
  (f.name, f.value.toJson)

/-- A text reads as a key: it is not empty, does not start like a tag, and nothing in it ends a
token or a key. -/
def isName (name : Text) : Bool :=
  !name.isEmpty && name.head? != some '[' &&
    name.all fun c => c != ' ' && c != '=' && c != '"'

/-- The name of a field reads as a key, and a number in it as one of sixty-four bits. -/
structure IsWellFormed (f : Field) : Prop where
  name : isName f.name = true
  number_le : ∀ n, f.value = .number n → n ≤ Decimal.max64

instance decidableNumberLe : (v : FieldValue) →
    Decidable (∀ n, v = .number n → n ≤ Decimal.max64)
  | .number m => decidable_of_iff (m ≤ Decimal.max64) (by simp)
  | .severity _ => isTrue (by simp)
  | .text _ => isTrue (by simp)

instance (f : Field) : Decidable f.IsWellFormed :=
  decidable_of_iff (isName f.name = true ∧ ∀ n, f.value = .number n → n ≤ Decimal.max64)
    ⟨fun h => ⟨h.1, h.2⟩, fun h => ⟨h.name, h.number_le⟩⟩

theorem isName_iff {name : Text} : isName name = true ↔
    name ≠ [] ∧ name.head? ≠ some '[' ∧ ∀ c ∈ name, c ≠ ' ' ∧ c ≠ '=' ∧ c ≠ '"' := by
  simp [isName, and_assoc]

/-- A key ends in front of an equals sign. -/
theorem equals_not_mem {name : Text} (h : isName name = true) : '=' ∉ name := by
  intro hmem
  exact ((isName_iff.1 h).2.2 '=' hmem).2.1 rfl

theorem IsWellFormed.name_ne_nil {f : Field} (h : f.IsWellFormed) : f.name ≠ [] :=
  (isName_iff.1 h.name).1

theorem IsWellFormed.name_chars {f : Field} (h : f.IsWellFormed) {c : Char} (hc : c ∈ f.name) :
    c ≠ ' ' ∧ c ≠ '=' ∧ c ≠ '"' :=
  (isName_iff.1 h.name).2.2 c hc

end Field

namespace Line

/-! ## Tokens of fields -/

/-- The scan passes an escaped character between quotes. -/
theorem passes_escape (c : Char) :
    Mode.quoted.Passes (Quoted.escape c) ∧ Mode.quoted.after (Quoted.escape c) = .quoted := by
  by_cases hquote : c = '"'
  · simp [Quoted.escape, hquote, Mode.Passes, Mode.next]
  by_cases hbackslash : c = '\\'
  · simp [Quoted.escape, hbackslash, Mode.Passes, Mode.next]
  by_cases hnewline : c = '\n'
  · simp [Quoted.escape, hnewline, Mode.Passes, Mode.next]
  by_cases hreturn : c = '\r'
  · simp [Quoted.escape, hreturn, Mode.Passes, Mode.next]
  by_cases htab : c = '\t'
  · simp [Quoted.escape, htab, Mode.Passes, Mode.next]
  simp [Quoted.escape, hquote, hbackslash, hnewline, hreturn, htab, Mode.Passes, Mode.next]

/-- The scan passes everything between quotes. -/
theorem passes_flatMap_escape (s : Text) :
    Mode.quoted.Passes (s.flatMap Quoted.escape) ∧
      Mode.quoted.after (s.flatMap Quoted.escape) = .quoted := by
  induction s with
  | nil => exact ⟨trivial, rfl⟩
  | cons c s ih =>
      rcases passes_escape c with ⟨hpasses, hafter⟩
      rw [List.flatMap_cons, Mode.after_append, hafter]
      refine ⟨Mode.passes_append hpasses ?_, ih.2⟩
      rw [hafter]
      exact ih.1

/-- The scan passes a written text as a whole. -/
theorem passes_encode (s : Text) :
    Mode.plain.Passes (Quoted.encode s) ∧ Mode.plain.after (Quoted.encode s) = .plain := by
  rcases Quoted.encode_cases s with hquoted | ⟨hbare, -, hchars⟩
  · rcases passes_flatMap_escape s with ⟨hpasses, hafter⟩
    rw [hquoted]
    refine ⟨⟨by simp, Mode.passes_append hpasses ?_⟩, ?_⟩
    · rw [show Mode.plain.next '"' = .quoted from rfl, hafter]
      exact ⟨by simp, trivial⟩
    · rw [Mode.after_cons, Mode.after_append, show Mode.plain.next '"' = .quoted from rfl, hafter]
      rfl
  · rw [hbare]
    apply Mode.plain_of_bare
    intro c hc
    rcases hchars c hc with ⟨hblank, hquote, -⟩
    refine ⟨hquote, ?_⟩
    rintro rfl
    exact absurd hblank (by decide)

theorem passes_write (n : Nat) :
    Mode.plain.Passes (Decimal.write n) ∧ Mode.plain.after (Decimal.write n) = .plain := by
  apply Mode.plain_of_bare
  intro c hc
  constructor
  · exact Decimal.ne_of_mem_write hc (by decide)
  · exact Decimal.ne_of_mem_write hc (by decide)

theorem passes_render (v : FieldValue) :
    Mode.plain.Passes v.render ∧ Mode.plain.after v.render = .plain := by
  cases v with
  | number n => exact passes_write n
  | severity s => cases s <;> exact ⟨by decide, rfl⟩
  | text s => exact passes_encode s

/-- The token of a well-formed field is one token of the line. -/
theorem isToken_token {f : Field} (h : f.IsWellFormed) : IsToken f.token := by
  have hbare : ∀ c ∈ f.name, c ≠ '"' ∧ c ≠ ' ' := by
    intro c hc
    exact ⟨(h.name_chars hc).2.2, (h.name_chars hc).1⟩
  rcases Mode.plain_of_bare hbare with ⟨hname, hplain⟩
  rcases passes_render f.value with ⟨hvalue, hend⟩
  have hequals : Mode.plain.next '=' = .plain := rfl
  refine ⟨Mode.passes_append hname ?_, ?_, ?_⟩
  · rw [hplain]
    refine ⟨by simp, ?_⟩
    rw [hequals]
    exact hvalue
  · rw [Field.token, Mode.after_append, hplain, Mode.after_cons, hequals, hend]
  · simp [Field.token]

/-- The tag in brackets, read from the left. -/
theorem tagToken_eq (number : Nat) :
    Event.tagToken number = "[tag=".toList ++ (Decimal.write number ++ [']']) :=
  List.append_assoc _ _ _

/-- The tag in brackets is one token of the line. -/
theorem isToken_tagToken (number : Nat) : IsToken (Event.tagToken number) := by
  have hopening : Mode.plain.Passes "[tag=".toList := by decide
  have hplain : Mode.plain.after "[tag=".toList = .plain := rfl
  rcases passes_write number with ⟨hnumber, hend⟩
  rw [tagToken_eq]
  refine ⟨?_, ?_, by simp⟩
  · apply Mode.passes_append hopening
    rw [hplain]
    apply Mode.passes_append hnumber
    rw [hend]
    decide
  · rw [Mode.after_append, Mode.after_append, hplain, hend]
    rfl

theorem renderAll_cons (f : Field) (fields : List Field) :
    Field.renderAll (f :: fields) = f.token ++ ' ' :: Field.renderAll fields := by
  simp [Field.renderAll, Field.render, Field.token]

/-- Rendered fields do not start with a space. -/
theorem head?_renderAll {fields : List Field} (h : ∀ f ∈ fields, f.IsWellFormed) :
    (Field.renderAll fields).head? ≠ some ' ' := by
  cases fields with
  | nil => simp [Field.renderAll]
  | cons f fields =>
      have hf := h f List.mem_cons_self
      cases hname : f.name with
      | nil => exact absurd hname hf.name_ne_nil
      | cons c name =>
          have hc : c ≠ ' ' := (hf.name_chars (by simp [hname])).1
          simp [renderAll_cons, Field.token, hname, hc]

/-- The pieces of rendered fields. -/
theorem pieces_renderAll {fields : List Field} (h : ∀ f ∈ fields, f.IsWellFormed) :
    pieces (Field.renderAll fields) = (fields.map Field.token).map spaced := by
  induction fields with
  | nil => simp [Field.renderAll, pieces]
  | cons f fields ih =>
      have hrest : ∀ g ∈ fields, g.IsWellFormed := by
        intro g hg
        exact h g (List.mem_cons_of_mem f hg)
      rw [renderAll_cons, pieces_cons (isToken_token (h f List.mem_cons_self))
        (head?_renderAll hrest), ih hrest]
      rfl

/-- The pieces of a rendered line. -/
theorem pieces_lineOf (number : Nat) {fields : List Field} (h : ∀ f ∈ fields, f.IsWellFormed) :
    pieces (Event.lineOf number fields) =
      (Event.tagToken number :: fields.map Field.token).map spaced := by
  rw [Event.lineOf, pieces_cons (isToken_tagToken number) (head?_renderAll h), pieces_renderAll h]
  rfl

/-- The tokens of a rendered line. -/
theorem tokens_lineOf (number : Nat) {fields : List Field} (h : ∀ f ∈ fields, f.IsWellFormed) :
    tokens (Event.lineOf number fields) = Event.tagToken number :: fields.map Field.token := by
  have htoken : Piece.token ∘ spaced = id := rfl
  have hne : ∀ t ∈ Event.tagToken number :: fields.map Field.token, t ≠ [] := by
    intro t ht
    rcases List.mem_cons.1 ht with rfl | hfield
    · exact (isToken_tagToken number).ne_nil
    · rcases List.mem_map.1 hfield with ⟨f, hf, rfl⟩
      exact (isToken_token (h f hf)).ne_nil
  rw [tokens, pieces_lineOf number h, List.map_map, htoken, List.map_id]
  exact List.filter_eq_self.2 fun t ht => decide_eq_true (hne t ht)

/-! ## What the tokens stand for -/

/-- A number reads back as a number. -/
theorem bareValue_write {n : Nat} (h : n ≤ Decimal.max64) :
    bareValue (Decimal.write n) = .number n := by
  rw [bareValue, Decimal.read?_write h]

/-- A text that does not start with a quote is a bare value. -/
theorem fieldValue_of_bare {s : Text} (h : ∀ c ∈ s, c ≠ '"') : fieldValue s = bareValue s := by
  unfold fieldValue
  split
  next quoted => exact absurd rfl (h '"' List.mem_cons_self)
  next => rfl

/-- A written text reads back as this text, and never as a number. -/
theorem fieldValue_encode (s : Text) : fieldValue (Quoted.encode s) = .text s := by
  rcases Quoted.encode_cases s with hquoted | ⟨hbare, hnumber, hchars⟩
  · rw [hquoted, fieldValue, Quoted.decode_flatMap_escape]
  · rw [hbare, fieldValue_of_bare fun c hc => (hchars c hc).2.1, bareValue, hnumber]

theorem fieldValue_render {v : FieldValue} (h : ∀ n, v = .number n → n ≤ Decimal.max64) :
    fieldValue v.render = v.toJson := by
  cases v with
  | number n =>
      have hchars : ∀ c ∈ Decimal.write n, c ≠ '"' := by
        intro c hc
        exact Decimal.ne_of_mem_write hc (by decide)
      rw [FieldValue.render, fieldValue_of_bare hchars, bareValue_write (h n rfl)]
      rfl
  | severity s => cases s <;> rfl
  | text s => exact fieldValue_encode s

/-- A token with a key in front of its first equals sign is a member of this key. -/
theorem part_of_isName {name : Text} (h : Field.isName name = true) (value : Text) :
    part (name ++ '=' :: value) = .member name (fieldValue value) := by
  rcases Field.isName_iff.1 h with ⟨hne, hhead, -⟩
  have htag : ¬ IsTag (name ++ '=' :: value) := by
    rintro ⟨inner, heq⟩
    rw [← List.head?_append_of_ne_nil name hne, heq] at hhead
    exact hhead rfl
  rw [part_keyed htag (Field.equals_not_mem h), if_neg hne]

/-- The token of a field stands for what the field means. -/
theorem part_token {f : Field} (h : f.IsWellFormed) :
    part f.token = .member f.name f.value.toJson := by
  rw [Field.token, part_of_isName h.name, fieldValue_render h.number_le]

/-- The tag in brackets stands for the tag. -/
theorem part_tagToken {number : Nat} (h : number ≤ Decimal.max64) :
    part (Event.tagToken number) = .member "tag".toList (.number number) := by
  rw [tagToken_eq, ← List.append_assoc, part_tag, bareValue_write h]

/-- The members that a rendered line names: the tag, then the fields. -/
theorem members_lineOf {number : Nat} {fields : List Field} (hnumber : number ≤ Decimal.max64)
    (h : ∀ f ∈ fields, f.IsWellFormed) :
    members (Event.lineOf number fields) =
      ("tag".toList, .number number) :: fields.map Field.toMember := by
  have hparts : (fields.map Field.token).map part =
      fields.map fun f => .member f.name f.value.toJson := by
    rw [List.map_map]
    exact List.map_congr_left fun f hf => part_token (h f hf)
  have hmembers : (fields.map fun f => Part.member f.name f.value.toJson).filterMap Part.member? =
      fields.map Field.toMember := by
    rw [List.filterMap_map]
    simp [Function.comp_def, Part.member?, Field.toMember]
  have hwords : (fields.map fun f => Part.member f.name f.value.toJson).filterMap Part.word? =
      [] := by
    rw [List.filterMap_map]
    simp [Function.comp_def, Part.word?]
  rw [members, tokens_lineOf number h, List.map_cons, part_tagToken hnumber, hparts]
  simp only [List.filterMap_cons, Part.member?, Part.word?, hmembers, hwords, messageMember,
    if_true, List.append_nil]

/-- The object of a rendered line: of the tag and the fields the first of each name. -/
theorem object_lineOf {number : Nat} {fields : List Field} (hnumber : number ≤ Decimal.max64)
    (h : ∀ f ∈ fields, f.IsWellFormed) :
    object (Event.lineOf number fields) =
      Json.Object.firstWins (("tag".toList, .number number) :: fields.map Field.toMember) := by
  rw [object, members_lineOf hnumber h, Json.Object.ofMembers_eq_firstWins]

end Line

end EventLog
