import Mathlib.Data.List.Forall2
import EventLog.Line.Sink
import EventLog.Proofs.Json.Controls
import EventLog.Proofs.Json.FirstWins
import EventLog.Proofs.Json.Reader
import EventLog.Proofs.Line.Cut
import EventLog.Proofs.Text.Decimal
import EventLog.Proofs.Text.Quoted
import EventLog.Proofs.Text.Splitting

/-!
# What JSON messages say of their lines

Any text is a line, also one with open quotes, stray backslashes or repeated keys.  Its JSON message
is an object that says what the tokens of the line say, each by itself: a tag in brackets, a value
under a key, or a word.  The values have their meanings without the reading functions: a number by
its digits, and a text in quotes by what stands for each of its characters.

Main results:

- `Line.says_iff`: what a token says.
- `Line.object_eq_objectOf`: the object of a line, from what its tokens say.
- `Line.read?_jsonMessage`: the JSON message of any line, read back.
- `Line.not_fieldMeans_quotedTag`: a tag in quotes keeps them.
-/

namespace EventLog

namespace Line

/-! ## Values -/

/-- What a text means that is taken as it stands: the number of sixty-four bits that it denotes, or
else itself. -/
inductive BareMeans (s : Text) : Json.Value → Prop
  | number (n : Nat) (h : Decimal.Denotes s n) (hbound : n ≤ Decimal.max64) :
      BareMeans s (.number n)
  | text (h : ∀ n, Decimal.Denotes s n → ¬ n ≤ Decimal.max64) : BareMeans s (.text s)

theorem bareMeans_iff {s : Text} {v : Json.Value} : BareMeans s v ↔ bareValue s = v := by
  unfold bareValue
  cases hread : Decimal.read? Decimal.max64 s with
  | none =>
      have hnone : ∀ n, Decimal.Denotes s n → ¬ n ≤ Decimal.max64 := by
        intro n hn hbound
        rw [Decimal.read?_eq_some_iff.2 ⟨hn, hbound⟩] at hread
        cases hread
      constructor
      · rintro (⟨n, hn, hbound⟩ | -)
        · exact absurd hbound (hnone n hn)
        · rfl
      · rintro rfl
        exact .text hnone
  | some n =>
      rcases Decimal.read?_eq_some_iff.1 hread with ⟨hn, hbound⟩
      constructor
      · rintro (⟨m, hm, hmbound⟩ | hnone)
        · rw [Decimal.read?_eq_some_iff.2 ⟨hm, hmbound⟩] at hread
          cases hread
          rfl
        · exact absurd hbound (hnone n hn)
      · rintro rfl
        exact .number n hn hbound

/-- What a text behind a key means: in quotes the text that stands there, else what it means as it
stands. -/
inductive FieldMeans : Text → Json.Value → Prop
  | quoted (s t : Text) (h : Quoted.Means s t) : FieldMeans ('"' :: s) (.text t)
  | bare (s : Text) (v : Json.Value) (hquote : s.head? ≠ some '"') (h : BareMeans s v) :
      FieldMeans s v

theorem fieldMeans_iff {s : Text} {v : Json.Value} : FieldMeans s v ↔ fieldValue s = v := by
  constructor
  · rintro (⟨s, t, h⟩ | ⟨s, v, hquote, h⟩)
    · rw [fieldValue, Quoted.decode_eq_iff.2 h]
    · unfold fieldValue
      split
      next => exact absurd rfl hquote
      next => exact bareMeans_iff.1 h
  · rintro rfl
    unfold fieldValue
    split
    next s => exact .quoted s _ (Quoted.means_decode s)
    next hquote =>
      refine .bare s _ ?_ (bareMeans_iff.2 rfl)
      intro hhead
      cases s with
      | nil => cases hhead
      | cons c s => exact hquote s (by rw [Option.some.inj hhead])

/-! ## Tokens -/

/-- The token is a tag in brackets. -/
def IsTag (token : Text) : Prop :=
  ∃ value, token = "[tag=".toList ++ value ++ [']']

/-- What a token says.  The text in the brackets of a tag is taken as it stands.  A key is what is
in front of the first equals sign, if anything is. -/
inductive Says : Text → Part → Prop
  | tag (value : Text) (v : Json.Value) (h : BareMeans value v) :
      Says ("[tag=".toList ++ value ++ [']']) (.member "tag".toList v)
  | field (key value : Text) (v : Json.Value) (htag : ¬ IsTag (key ++ '=' :: value))
      (hkey : key ≠ []) (hequals : '=' ∉ key) (h : FieldMeans value v) :
      Says (key ++ '=' :: value) (.member key v)
  | word (token : Text) (htag : ¬ IsTag token)
      (hkey : ∀ key value, token = key ++ '=' :: value → '=' ∉ key → key = []) :
      Says token (.word token)

theorem part_tag (value : Text) :
    part ("[tag=".toList ++ value ++ [']']) = .member "tag".toList (bareValue value) := by
  rw [part, Text.unframe?_eq_some_iff.2 rfl]

theorem unframe?_of_not_isTag {token : Text} (h : ¬ IsTag token) :
    Text.unframe? "[tag=".toList ']' token = none := by
  cases hvalue : Text.unframe? "[tag=".toList ']' token with
  | none => rfl
  | some value => exact absurd ⟨value, Text.unframe?_eq_some_iff.1 hvalue⟩ h

/-- A token that is no tag is read around its first equals sign. -/
theorem part_keyed {key value : Text} (h : ¬ IsTag (key ++ '=' :: value)) (hequals : '=' ∉ key) :
    part (key ++ '=' :: value) =
      if key = [] then .word (key ++ '=' :: value) else .member key (fieldValue value) := by
  simp only [part, unframe?_of_not_isTag h, Text.splitAtFirst?_append hequals]

/-- Without an equals sign it is a word. -/
theorem part_unkeyed {token : Text} (h : ¬ IsTag token) (hequals : '=' ∉ token) :
    part token = .word token := by
  simp only [part, unframe?_of_not_isTag h, Text.splitAtFirst?_eq_none_iff.2 hequals]

/-- Every token says what its part is. -/
theorem says_part (token : Text) : Says token (part token) := by
  by_cases htag : IsTag token
  · rcases htag with ⟨value, rfl⟩
    rw [part_tag]
    exact .tag value _ (bareMeans_iff.2 rfl)
  by_cases hmem : '=' ∈ token
  · rcases List.eq_append_cons_of_mem hmem with ⟨key, value, rfl, hequals⟩
    rw [part_keyed htag hequals]
    by_cases hkey : key = []
    · rw [if_pos hkey]
      refine .word _ htag ?_
      intro other rest heq hother
      -- there is one way only to split around the first equals sign
      have hsplit := Text.splitAtFirst?_append hother rest
      rw [← heq, Text.splitAtFirst?_append hequals value] at hsplit
      cases hsplit
      exact hkey
    · rw [if_neg hkey]
      exact .field key value _ htag hkey hequals (fieldMeans_iff.2 rfl)
  · rw [part_unkeyed htag hmem]
    refine .word token htag ?_
    rintro key value rfl -
    exact absurd (by simp) hmem

/-- What a token says is its part. -/
theorem says_iff {token : Text} {p : Part} : Says token p ↔ part token = p := by
  constructor
  · rintro (⟨value, v, h⟩ | ⟨key, value, v, htag, hkey, hequals, h⟩ | ⟨_, htag, hkey⟩)
    · rw [part_tag, bareMeans_iff.1 h]
    · rw [part_keyed htag hequals, if_neg hkey, fieldMeans_iff.1 h]
    · by_cases hmem : '=' ∈ token
      · rcases List.eq_append_cons_of_mem hmem with ⟨key, value, rfl, hequals⟩
        rw [part_keyed htag hequals, if_pos (hkey key value rfl hequals)]
      · exact part_unkeyed htag hmem
  · rintro rfl
    exact says_part token

/-- What tokens say is one list of parts. -/
theorem forall₂_says_iff {ts : List Text} {parts : List Part} :
    List.Forall₂ Says ts parts ↔ parts = ts.map part := by
  constructor
  · intro h
    induction h with
    | nil => rfl
    | cons hfirst _ ih => rw [List.map_cons, says_iff.1 hfirst, ih]
  · rintro rfl
    rw [List.forall₂_map_right_iff]
    exact List.forall₂_same.2 fun t _ => says_part t

/-! ## Objects -/

/-- The object with the words, joined by single spaces, as a last member `msg`; without words, and
if that key is there, it stays as it is. -/
def addMessage (o : Json.Object) (words : List Text) : Json.Object :=
  if words = [] ∨ (o.any fun m => m.1 = "msg".toList) then o
  else o ++ [("msg".toList, .text ([' '].intercalate words))]

/-- The object of what tokens say: the first member of each key, in order, and the words. -/
def objectOf (parts : List Part) : Json.Object :=
  addMessage (Json.Object.firstWins (parts.filterMap Part.member?)) (parts.filterMap Part.word?)

/-- A member behind others is left out if its key is among theirs. -/
theorem ofMembers_append_messageMember (ms : List (Text × Json.Value)) (words : List Text) :
    Json.Object.ofMembers (ms ++ messageMember words) =
      addMessage (Json.Object.firstWins ms) words := by
  by_cases hwords : words = []
  · simp [messageMember, addMessage, hwords, Json.Object.ofMembers_eq_firstWins]
  have hlast : Json.Object.ofMembers (ms ++ messageMember words) =
      (Json.Object.firstWins ms).insertNew "msg".toList (.text ([' '].intercalate words)) := by
    rw [messageMember, if_neg hwords, Json.Object.ofMembers, List.foldl_append,
      ← Json.Object.ofMembers, Json.Object.ofMembers_eq_firstWins]
    rfl
  rw [hlast, Json.Object.insertNew]
  simp only [addMessage, hwords, false_or]

/-- The object of a line is that of what its tokens say. -/
theorem object_eq_objectOf (line : Text) : object line = objectOf ((runs line).map part) := by
  rw [object, members, ofMembers_append_messageMember, tokens_eq_runs]
  rfl

/-- No key is in an object twice. -/
theorem nodup_keys_object (line : Text) : ((object line).map Prod.fst).Nodup := by
  rw [object, Json.Object.ofMembers_eq_firstWins]
  exact Json.Object.nodup_firstWins (members line)

/-! ## Messages -/

/-- The JSON message of any line is a well-formed object without a character below the space and
without repeated keys.  It reads as the object of what the tokens of the line say. -/
theorem read?_jsonMessage (line : Text) :
    ∃ parts, List.Forall₂ Says (runs line) parts ∧
      (∀ others, List.Forall₂ Says (runs line) others → others = parts) ∧
      Json.read? (jsonMessage line) = some (objectOf parts) ∧
      ((objectOf parts).map Prod.fst).Nodup ∧
      ∀ c ∈ jsonMessage line, 0x20 ≤ c.toNat := by
  refine ⟨(runs line).map part, forall₂_says_iff.2 rfl, fun others h => forall₂_says_iff.1 h, ?_⟩
  rw [← object_eq_objectOf, jsonMessage]
  refine ⟨Json.read?_write (object line), nodup_keys_object line, ?_⟩
  intro c hc
  exact Json.Object.le_toNat_of_mem_write hc

/-- In a tag in brackets a text in quotes is not read like the text behind a key: the quotes stay
in the message. -/
theorem not_fieldMeans_quotedTag :
    runs "[tag=\"a\"]".toList = ["[tag=".toList ++ "\"a\"".toList ++ [']']] ∧
      FieldMeans "\"a\"".toList (.text "a".toList) ∧
      Json.read? (jsonMessage "[tag=\"a\"]".toList) =
        some [("tag".toList, .text "\"a\"".toList)] ∧
      ∀ v, FieldMeans "\"a\"".toList v →
        Json.read? (jsonMessage "[tag=\"a\"]".toList) ≠ some [("tag".toList, v)] := by
  have hvalue : fieldValue "\"a\"".toList = .text "a".toList := by decide
  have hread : Json.read? (jsonMessage "[tag=\"a\"]".toList) =
      some [("tag".toList, .text "\"a\"".toList)] := by
    rw [jsonMessage, Json.read?_write, object_eq_objectOf]
    decide
  refine ⟨by decide, fieldMeans_iff.2 hvalue, hread, ?_⟩
  intro v hv
  rw [fieldMeans_iff, hvalue] at hv
  rw [hread, ← hv]
  decide

end Line

end EventLog
