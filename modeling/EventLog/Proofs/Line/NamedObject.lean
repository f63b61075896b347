import EventLog.Proofs.Line.Naming
import EventLog.Proofs.Line.Reading

/-!
# Objects of text messages

A text message has its own JSON object.  The text message finds the token to name by looking for the
first one with the key; the object keeps the first member of each key.  Both find the same token in
any line, and the two readings of its value, as a number of sixteen bits and of sixty-four, agree on
every number that a name is registered for.

Main results:

- `Line.fieldValue_named`: the value of a named token.
- `Line.objectOf_nameFirst`: giving a name changes one member of the object.
- `Line.read?_jsonMessage_textMessage`: the object of the text message of any line.
-/

namespace EventLog

namespace Line

open Json.Object (firstWins onKey)

/-! ## Values -/

/-- The value with the name for a number that has one. -/
def nameOf (name? : Nat → Option String) : Json.Value → Json.Value
  | .number n => match name? n with
    | some name => .text name.toList
    | none => .number n
  | .text s => .text s

/-- The value of a named token is the named value of the token. -/
theorem fieldValue_named {name? : Nat → Option String} (h : IsNaming name?)
    (hbound : ∀ {n name}, name? n = some name → n ≤ Decimal.max16) (value : Text) :
    fieldValue (named name? value) = nameOf name? (fieldValue value) := by
  cases hresolve : resolve? name? value with
  | some text =>
      rcases resolve?_eq_some_iff.1 hresolve with ⟨n, name, hdenotes, hle, hsome, rfl⟩
      have hnumber : fieldValue value = .number n := by
        rw [fieldValue_of_bare fun c hc => hdenotes.ne_of_mem hc (by decide) (by decide)]
        exact bareMeans_iff.1 (.number n hdenotes (Nat.le_trans hle Decimal.max16_le_max64))
      have hname : fieldValue name.toList = .text name.toList := by
        rw [fieldValue_of_bare fun c hc => (h.ne_of_mem hsome hc).1, bareValue,
          h.read?_eq_none hsome (Nat.le_refl _)]
      simp [named, hresolve, hnumber, hname, nameOf, hsome]
  | none =>
      have hsame : named name? value = value := by simp [named, hresolve]
      rw [hsame]
      cases hvalue : fieldValue value with
      | text s => rfl
      | number n =>
          -- the number has no name, for it would have been found
          cases hname : name? n with
          | none => simp [nameOf, hname]
          | some name =>
              rcases fieldMeans_iff.2 hvalue with ⟨⟩ | ⟨_, _, -, ⟨_, hdenotes, -⟩⟩
              rw [resolve?_eq_some_iff.2 ⟨n, name, hdenotes, hbound hname, hname, rfl⟩] at hresolve
              cases hresolve

/-! ## Objects of pieces -/

/-- What the tokens of pieces say. -/
def partsOf (ps : List Piece) : List Part :=
  ((ps.map Piece.token).filter (· ≠ [])).map part

theorem object_eq_objectOf_partsOf (line : Text) :
    object line = objectOf (partsOf (pieces line)) := by
  rw [object_eq_objectOf, ← tokens_eq_runs]
  rfl

/-- A token with the key among others is a member among what they say. -/
theorem partsOf_append {key : Text} (h : Field.isName key = true) (before after : List Piece)
    (value gap : Text) :
    partsOf (before ++ ⟨key ++ '=' :: value, gap⟩ :: after) =
      partsOf before ++ .member key (fieldValue value) :: partsOf after := by
  simp [partsOf, part_of_isName h]

/-- Only a token that has its value under a key is a member of this key, a tag in brackets apart. -/
theorem part_ne_member {key : Text} (htag : key ≠ "tag".toList) {token : Text}
    (h : valueOf? key token = none) (v : Json.Value) : part token ≠ .member key v := by
  intro hpart
  have hsays := says_iff.2 hpart
  cases hsays with
  | tag => exact htag rfl
  | field _ value _ _ _ hequals =>
      rw [valueOf?_self hequals] at h
      cases h

/-- Tokens without the key are no members of it. -/
theorem not_mem_partsOf {key : Text} (htag : key ≠ "tag".toList) {ps : List Piece}
    (h : ∀ p ∈ ps, valueOf? key p.token = none) :
    key ∉ ((partsOf ps).filterMap Part.member?).map Prod.fst := by
  intro hmem
  rcases List.mem_map.1 hmem with ⟨⟨_, v⟩, hm, rfl⟩
  rcases List.mem_filterMap.1 hm with ⟨said, hsaid, hmember⟩
  rcases List.mem_map.1 hsaid with ⟨token, htoken, hpart⟩
  rcases List.mem_map.1 (List.mem_filter.1 htoken).1 with ⟨p, hp, rfl⟩
  cases said with
  | word => cases hmember
  | member key v =>
      cases hmember
      exact part_ne_member htag (h p hp) v hpart

/-- The last member is added whatever the values under another key are. -/
theorem addMessage_map_onKey {key : Text} (h : key ≠ "msg".toList) (f : Json.Value → Json.Value)
    (o : Json.Object) (words : List Text) :
    addMessage (o.map (onKey key f)) words = (addMessage o words).map (onKey key f) := by
  have hkeys : ((o.map (onKey key f)).any fun m => m.1 = "msg".toList) =
      o.any fun m => m.1 = "msg".toList := by
    rw [List.any_map]
    simp only [Function.comp_def, Json.Object.onKey_fst]
  unfold addMessage
  rw [hkeys]
  split
  next => rfl
  next => rw [List.map_append, List.map_singleton, Json.Object.onKey_of_ne (Ne.symm h)]

/-- Giving a name changes the value of the one member with the key. -/
theorem objectOf_nameFirst {key : Text} (hkey : Field.isName key = true)
    (htag : key ≠ "tag".toList) (hmsg : key ≠ "msg".toList) {name? : Nat → Option String}
    (h : IsNaming name?) (hbound : ∀ {n name}, name? n = some name → n ≤ Decimal.max16)
    (ps : List Piece) :
    objectOf (partsOf (nameFirst key name? ps)) =
      (objectOf (partsOf ps)).map (onKey key (nameOf name?)) := by
  rcases nameFirst_cases (Field.equals_not_mem hkey) name? ps with
    ⟨hnone, hsame⟩ | ⟨before, value, gap, after, hbefore, rfl, hnamed⟩
  · have hkept : key ∉ (firstWins ((partsOf ps).filterMap Part.member?)).map Prod.fst := by
      intro hmem
      have hsub := Json.Object.firstWins_sublist ((partsOf ps).filterMap Part.member?)
      exact not_mem_partsOf htag hnone ((hsub.map Prod.fst).subset hmem)
    rw [hsame, objectOf, ← addMessage_map_onKey hmsg, Json.Object.map_onKey_of_not_mem hkept]
  · rw [hnamed, partsOf_append hkey, partsOf_append hkey, fieldValue_named h hbound]
    simp only [objectOf, List.filterMap_append, List.filterMap_cons, Part.member?, Part.word?]
    rw [Json.Object.firstWins_onKey (not_mem_partsOf htag hbefore), addMessage_map_onKey hmsg]

/-! ## Messages -/

/-- The member with a name: of the class if it is the number of one, of the method if it is the
number of one. -/
def namedMember (m : Text × Json.Value) : Text × Json.Value :=
  if m.1 = classKey then (m.1, nameOf className? m.2)
  else if m.1 = methodKey then (m.1, nameOf methodName? m.2)
  else m

theorem namedMember_eq (m : Text × Json.Value) :
    namedMember m =
      onKey methodKey (nameOf methodName?) (onKey classKey (nameOf className?) m) := by
  have hne : classKey ≠ methodKey := by decide
  by_cases hclass : m.1 = classKey
  · rw [namedMember, if_pos hclass, onKey, onKey, if_pos hclass, if_neg (hclass ▸ hne)]
  · rw [namedMember, if_neg hclass, Json.Object.onKey_of_ne hclass]
    rfl

/-- The object of a text message is that of the line with names for numbers. -/
theorem object_textMessage (line : Text) :
    object (textMessage line) = (object line).map namedMember := by
  rw [object_eq_objectOf_partsOf, pieces_textMessage,
    objectOf_nameFirst (by decide) (by decide) (by decide) isNaming_methodName
      le_max16_of_methodName?,
    objectOf_nameFirst (by decide) (by decide) (by decide) isNaming_className
      le_max16_of_className?,
    ← object_eq_objectOf_partsOf, List.map_map]
  exact List.map_congr_left fun m _ => (namedMember_eq m).symm

/-- The JSON message of the text message of any line has the members of the JSON message of the
line in the same order, with names for the number of the class and for that of the method. -/
theorem read?_jsonMessage_textMessage (line : Text) :
    ∃ o, Json.read? (jsonMessage line) = some o ∧
      Json.read? (jsonMessage (textMessage line)) = some (o.map namedMember) ∧
      (o.map namedMember).map Prod.fst = o.map Prod.fst := by
  refine ⟨object line, Json.read?_write (object line), ?_, ?_⟩
  · rw [jsonMessage, Json.read?_write, object_textMessage]
  · rw [List.map_map]
    refine List.map_congr_left ?_
    intro m _
    rw [Function.comp_apply, namedMember_eq, Json.Object.onKey_fst, Json.Object.onKey_fst]

end Line

end EventLog
