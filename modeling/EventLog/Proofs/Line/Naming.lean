import EventLog.Proofs.Line.Cut
import EventLog.Proofs.Line.Rendered
import EventLog.Proofs.Names
import EventLog.Line.Sink

/-!
# Names in any line

Giving names changes the first token with the key of the class and the first with the key of the
method, wherever they stand in a line of any text, and of these only the values.  A name is whole in
its token, so the message is cut where the line was.  It is no number, so there is nothing left to
name in the message.

Main results:

- `Line.nameFirst_cases`: what giving a name does to pieces.
- `Line.pieces_textMessage`: the pieces of a text message.
- `Line.isNamed_textMessage`: what is changed in a line and what is kept.
-/

namespace EventLog

namespace Line

/-! ## Values under a key -/

/-- A token has its value under the key in front of its first equals sign, and under no other. -/
theorem valueOf?_append {other : Text} (h : '=' ∉ other) (key value : Text) :
    valueOf? key (other ++ '=' :: value) = if other = key then some value else none := by
  rw [valueOf?, Text.splitAtFirst?_append h]

theorem valueOf?_self {key : Text} (h : '=' ∉ key) (value : Text) :
    valueOf? key (key ++ '=' :: value) = some value := by
  rw [valueOf?_append h, if_pos rfl]

theorem valueOf?_other {key other : Text} (h : '=' ∉ other) (hne : other ≠ key) (value : Text) :
    valueOf? key (other ++ '=' :: value) = none := by
  rw [valueOf?_append h, if_neg hne]

theorem valueOf?_eq_some_iff {key token value : Text} (h : '=' ∉ key) :
    valueOf? key token = some value ↔ token = key ++ '=' :: value := by
  constructor
  · intro hvalue
    unfold valueOf? at hvalue
    split at hvalue
    next k v hsplit =>
      rcases Text.splitAtFirst?_eq_some_iff.1 hsplit with ⟨-, rfl⟩
      split at hvalue
      next hk => rw [hk, Option.some.inj hvalue]
      next => cases hvalue
    next => cases hvalue
  · rintro rfl
    exact valueOf?_self h value

theorem resolve?_eq_some_iff {name? : Nat → Option String} {value text : Text} :
    resolve? name? value = some text ↔
      ∃ n name, Decimal.Denotes value n ∧ n ≤ Decimal.max16 ∧ name? n = some name ∧
        name.toList = text := by
  simp only [resolve?, Option.bind_eq_some_iff, Option.map_eq_some_iff, Decimal.read?_eq_some_iff]
  constructor
  · rintro ⟨n, ⟨hdenotes, hbound⟩, name, hname, htext⟩
    exact ⟨n, name, hdenotes, hbound, hname, htext⟩
  · rintro ⟨n, name, hdenotes, hbound, hname, htext⟩
    exact ⟨n, ⟨hdenotes, hbound⟩, name, hname, htext⟩

/-- The name for a value, or the value if it has none. -/
def named (name? : Nat → Option String) (value : Text) : Text :=
  (resolve? name? value).getD value

/-- A name has no name. -/
theorem named_named {name? : Nat → Option String} (h : IsNaming name?) (value : Text) :
    named name? (named name? value) = named name? value := by
  cases hresolve : resolve? name? value with
  | none => simp [named, hresolve]
  | some text =>
      rcases resolve?_eq_some_iff.1 hresolve with ⟨n, name, -, -, hname, rfl⟩
      have hnone : resolve? name? name.toList = none := by
        rw [resolve?, h.read?_eq_none hname Decimal.max16_le_max64, Option.bind_none]
      simp [named, hresolve, hnone]

/-! ## Giving a name -/

/-- A token without the key stays as it is. -/
theorem nameFirst_cons_of_none {key : Text} {p : Piece} (h : valueOf? key p.token = none)
    (name? : Nat → Option String) (ps : List Piece) :
    nameFirst key name? (p :: ps) = p :: nameFirst key name? ps := by
  rw [nameFirst, h]

/-- So do all tokens without the key in front. -/
theorem nameFirst_append {key : Text} {before : List Piece}
    (h : ∀ p ∈ before, valueOf? key p.token = none) (name? : Nat → Option String)
    (ps : List Piece) :
    nameFirst key name? (before ++ ps) = before ++ nameFirst key name? ps := by
  induction before with
  | nil => rfl
  | cons p before ih =>
      have hbefore : ∀ q ∈ before, valueOf? key q.token = none := by
        intro q hq
        exact h q (List.mem_cons_of_mem p hq)
      rw [List.cons_append, nameFirst_cons_of_none (h p List.mem_cons_self), ih hbefore,
        List.cons_append]

/-- The value of a token with the key gets its name, and nothing behind it is changed. -/
theorem nameFirst_keyed {key : Text} (h : '=' ∉ key) (name? : Nat → Option String)
    (value gap : Text) (ps : List Piece) :
    nameFirst key name? (⟨key ++ '=' :: value, gap⟩ :: ps) =
      ⟨key ++ '=' :: named name? value, gap⟩ :: ps := by
  rw [nameFirst, valueOf?_self h]
  cases hresolve : resolve? name? value with
  | none => simp [named, hresolve]
  | some text => simp [named, hresolve]

/-- Either no token has the key, or there is a first one and its value gets its name. -/
theorem nameFirst_cases {key : Text} (h : '=' ∉ key) (name? : Nat → Option String)
    (ps : List Piece) :
    (∀ p ∈ ps, valueOf? key p.token = none) ∧ nameFirst key name? ps = ps ∨
      ∃ before value gap after,
        (∀ p ∈ before, valueOf? key p.token = none) ∧
        ps = before ++ ⟨key ++ '=' :: value, gap⟩ :: after ∧
        nameFirst key name? ps =
          before ++ ⟨key ++ '=' :: named name? value, gap⟩ :: after := by
  cases hfind : ps.find? fun p => (valueOf? key p.token).isSome with
  | none =>
      have hnone : ∀ p ∈ ps, valueOf? key p.token = none := by
        simpa [List.find?_eq_none] using hfind
      refine Or.inl ⟨hnone, ?_⟩
      simpa [nameFirst] using nameFirst_append hnone name? []
  | some p =>
      rcases List.find?_eq_some_iff_append.1 hfind with ⟨hsome, before, after, rfl, hbefore⟩
      rcases p with ⟨token, gap⟩
      rcases Option.isSome_iff_exists.1 hsome with ⟨value, hvalue⟩
      obtain rfl : token = key ++ '=' :: value := (valueOf?_eq_some_iff h).1 hvalue
      have hnone : ∀ p ∈ before, valueOf? key p.token = none := by
        intro p hp
        simpa using hbefore p hp
      refine Or.inr ⟨before, value, gap, after, hnone, rfl, ?_⟩
      rw [nameFirst_append hnone, nameFirst_keyed h]

/-- The gaps stay. -/
theorem gaps_nameFirst {key : Text} (h : '=' ∉ key) (name? : Nat → Option String)
    (ps : List Piece) : (nameFirst key name? ps).map Piece.gap = ps.map Piece.gap := by
  rcases nameFirst_cases h name? ps with ⟨-, hsame⟩ | ⟨before, value, gap, after, -, rfl, hnamed⟩
  · rw [hsame]
  · rw [hnamed]
    simp

/-- There is nothing left to name. -/
theorem nameFirst_idem {key : Text} (h : '=' ∉ key) {name? : Nat → Option String}
    (hname : IsNaming name?) (ps : List Piece) :
    nameFirst key name? (nameFirst key name? ps) = nameFirst key name? ps := by
  rcases nameFirst_cases h name? ps with
    ⟨-, hsame⟩ | ⟨before, value, gap, after, hbefore, -, hnamed⟩
  · rw [hsame, hsame]
  · rw [hnamed, nameFirst_append hbefore, nameFirst_keyed h, named_named hname]

/-- Names under different keys are given independently of each other. -/
theorem nameFirst_comm {key other : Text} (hkey : '=' ∉ key) (hother : '=' ∉ other)
    (hne : key ≠ other) (name? otherName? : Nat → Option String) (ps : List Piece) :
    nameFirst key name? (nameFirst other otherName? ps) =
      nameFirst other otherName? (nameFirst key name? ps) := by
  induction ps with
  | nil => rfl
  | cons p ps ih =>
      cases hvalue : valueOf? key p.token with
      | some value =>
          rcases p with ⟨token, gap⟩
          obtain rfl : token = key ++ '=' :: value := (valueOf?_eq_some_iff hkey).1 hvalue
          rw [nameFirst_cons_of_none (valueOf?_other hkey hne value), nameFirst_keyed hkey,
            nameFirst_keyed hkey, nameFirst_cons_of_none (valueOf?_other hkey hne _)]
      | none =>
          rw [nameFirst_cons_of_none hvalue]
          cases hvalue' : valueOf? other p.token with
          | some value =>
              rcases p with ⟨token, gap⟩
              obtain rfl : token = other ++ '=' :: value := (valueOf?_eq_some_iff hother).1 hvalue'
              rw [nameFirst_keyed hother, nameFirst_keyed hother,
                nameFirst_cons_of_none (valueOf?_other hother hne.symm _)]
          | none =>
              rw [nameFirst_cons_of_none hvalue', nameFirst_cons_of_none hvalue',
                nameFirst_cons_of_none hvalue, ih]

/-! ## What is changed -/

/-- The token at the place is the first one with the key in front of its first equals sign, and the
value is what is behind the sign.  In the key itself there is none. -/
structure IsFirst (key : Text) (ts : List Text) (i : Nat) (value : Text) : Prop where
  here : ts[i]? = some (key ++ '=' :: value)
  first : ∀ j < i, ∀ other, ts[j]? ≠ some (key ++ '=' :: other)

/-- The first token with the key is at the place, and its value is a number of sixteen bits that the
name is registered for. -/
def IsNameAt (key : Text) (name? : Nat → Option String) (ts : List Text) (i : Nat)
    (name : String) : Prop :=
  ∃ value n, IsFirst key ts i value ∧ Decimal.Denotes value n ∧ n ≤ Decimal.max16 ∧
    name? n = some name

/-- Of the tokens the first with the key of the class and the first with that of the method have
names for their values, where there are any, and nothing else is changed. -/
structure IsNamed (ts us : List Text) : Prop where
  class_named : ∀ i name, IsNameAt classKey className? ts i name →
    us[i]? = some (classKey ++ '=' :: name.toList)
  method_named : ∀ i name, IsNameAt methodKey methodName? ts i name →
    us[i]? = some (methodKey ++ '=' :: name.toList)
  kept : ∀ i, (∀ name, ¬ IsNameAt classKey className? ts i name) →
    (∀ name, ¬ IsNameAt methodKey methodName? ts i name) → us[i]? = ts[i]?
  /-- At most two tokens are changed. -/
  two : ∃ i j : Nat, ∀ k, k ≠ i → k ≠ j → us[k]? = ts[k]?

theorem IsFirst.eq {key : Text} {ts : List Text} {i j : Nat} {value other : Text}
    (hi : IsFirst key ts i value) (hj : IsFirst key ts j other) : i = j := by
  rcases Nat.lt_trichotomy i j with hlt | heq | hgt
  · exact absurd hi.here (hj.first i hlt value)
  · exact heq
  · exact absurd hj.here (hi.first j hgt other)

/-- Behind tokens without the key the first with it is at one place only. -/
theorem isFirst_append_iff {key : Text} (h : '=' ∉ key) {before after : List Text} {value : Text}
    (hbefore : ∀ t ∈ before, valueOf? key t = none) {i : Nat} {v : Text} :
    IsFirst key (before ++ (key ++ '=' :: value) :: after) i v ↔
      i = before.length ∧ v = value := by
  have hfirst : IsFirst key (before ++ (key ++ '=' :: value) :: after) before.length value := by
    refine ⟨by simp, ?_⟩
    intro j hj other heq
    rw [List.getElem?_append_left hj] at heq
    have hnone := hbefore _ (List.mem_of_getElem? heq)
    rw [valueOf?_self h] at hnone
    cases hnone
  constructor
  · intro hi
    obtain rfl : i = before.length := hi.eq hfirst
    refine ⟨rfl, ?_⟩
    have hsame := hi.here.symm.trans hfirst.here
    simpa using hsame
  · rintro ⟨rfl, rfl⟩
    exact hfirst

/-- Where no token has the key, none is the first. -/
theorem not_isFirst {key : Text} (h : '=' ∉ key) {ts : List Text}
    (hnone : ∀ t ∈ ts, valueOf? key t = none) {i : Nat} {value : Text} :
    ¬ IsFirst key ts i value := by
  intro hi
  have hvalue := hnone _ (List.mem_of_getElem? hi.here)
  rw [valueOf?_self h] at hvalue
  cases hvalue

/-- The first token with the key gets the name that is registered for its value. -/
theorem getElem?_nameFirst {key : Text} (h : '=' ∉ key) {name? : Nat → Option String}
    {ps : List Piece} {i : Nat} {name : String}
    (hat : IsNameAt key name? (ps.map Piece.token) i name) :
    ((nameFirst key name? ps).map Piece.token)[i]? = some (key ++ '=' :: name.toList) := by
  rcases hat with ⟨v, n, hfirst, hdenotes, hbound, hsome⟩
  rcases nameFirst_cases h name? ps with
    ⟨hnone, -⟩ | ⟨before, value, gap, after, hbefore, rfl, hnamed⟩
  · exact absurd hfirst (not_isFirst h (List.forall_mem_map.2 hnone))
  · rw [List.map_append, List.map_cons] at hfirst
    rcases (isFirst_append_iff h (List.forall_mem_map.2 hbefore)).1 hfirst with ⟨rfl, rfl⟩
    have hresolve : resolve? name? v = some name.toList :=
      resolve?_eq_some_iff.2 ⟨n, name, hdenotes, hbound, hsome, rfl⟩
    rw [hnamed]
    simp [named, hresolve]

/-- Every other token stays. -/
theorem getElem?_nameFirst_of_not {key : Text} (h : '=' ∉ key) {name? : Nat → Option String}
    {ps : List Piece} {i : Nat} (hnot : ∀ name, ¬ IsNameAt key name? (ps.map Piece.token) i name) :
    ((nameFirst key name? ps).map Piece.token)[i]? = (ps.map Piece.token)[i]? := by
  rcases nameFirst_cases h name? ps with
    ⟨-, hsame⟩ | ⟨before, value, gap, after, hbefore, rfl, hnamed⟩
  · rw [hsame]
  · have hset : (before ++ ⟨key ++ '=' :: named name? value, gap⟩ :: after).map Piece.token =
        ((before ++ ⟨key ++ '=' :: value, gap⟩ :: after).map Piece.token).set before.length
          (key ++ '=' :: named name? value) := by
      simp
    rw [hnamed, hset]
    by_cases hi : i = before.length
    · -- the value at this place has no name
      have hresolve : resolve? name? value = none := by
        cases hresolve : resolve? name? value with
        | none => rfl
        | some text =>
            rcases resolve?_eq_some_iff.1 hresolve with ⟨n, name, hdenotes, hbound, hsome, -⟩
            refine absurd ⟨value, n, ?_, hdenotes, hbound, hsome⟩ (hnot name)
            rw [List.map_append, List.map_cons]
            exact (isFirst_append_iff h (List.forall_mem_map.2 hbefore)).2
              ⟨by simpa using hi, rfl⟩
      simp [hi, named, hresolve]
    · rw [List.getElem?_set_ne (Ne.symm hi)]

/-- There is one place at most where a token gets a name. -/
theorem exists_place (key : Text) (name? : Nat → Option String) (ts : List Text) :
    ∃ i, ∀ k name, IsNameAt key name? ts k name → k = i := by
  by_cases hat : ∃ i name, IsNameAt key name? ts i name
  · rcases hat with ⟨i, _, _, _, hi, -⟩
    refine ⟨i, ?_⟩
    rintro k _ ⟨_, _, hk, -⟩
    exact hk.eq hi
  · exact ⟨0, fun k name hk => absurd ⟨k, name, hk⟩ hat⟩

/-- Which token is the first with a key is a question of the values under it. -/
theorem isFirst_iff {key : Text} (h : '=' ∉ key) {ts : List Text} {i : Nat} {value : Text} :
    IsFirst key ts i value ↔ (ts.map (valueOf? key))[i]? = some (some value) ∧
      ∀ j < i, ∀ other, (ts.map (valueOf? key))[j]? ≠ some (some other) := by
  have hat : ∀ (j : Nat) (v : Text), (ts.map (valueOf? key))[j]? = some (some v) ↔
      ts[j]? = some (key ++ '=' :: v) := by
    intro j v
    simp [valueOf?_eq_some_iff h]
  simp only [hat, ne_eq]
  constructor
  · rintro ⟨hhere, hfirst⟩
    exact ⟨hhere, hfirst⟩
  · rintro ⟨hhere, hfirst⟩
    exact ⟨hhere, hfirst⟩

/-- A name under another key changes no value under this one. -/
theorem isNameAt_nameFirst {key other : Text} (hkey : '=' ∉ key) (hother : '=' ∉ other)
    (hne : other ≠ key) {name? otherName? : Nat → Option String} {ps : List Piece} {i : Nat}
    {name : String} :
    IsNameAt key name? ((nameFirst other otherName? ps).map Piece.token) i name ↔
      IsNameAt key name? (ps.map Piece.token) i name := by
  have hvalues : ((nameFirst other otherName? ps).map Piece.token).map (valueOf? key) =
      (ps.map Piece.token).map (valueOf? key) := by
    rcases nameFirst_cases hother otherName? ps with
      ⟨-, hsame⟩ | ⟨before, value, gap, after, -, rfl, hnamed⟩
    · rw [hsame]
    · rw [hnamed]
      simp [valueOf?_other hother hne]
  simp only [IsNameAt, isFirst_iff hkey, hvalues]

/-- Giving both names changes the two tokens and no other one. -/
theorem isNamed_nameFirst (ps : List Piece) :
    IsNamed (ps.map Piece.token)
      ((nameFirst methodKey methodName? (nameFirst classKey className? ps)).map Piece.token) := by
  have hclass : '=' ∉ classKey := by decide
  have hmethod : '=' ∉ methodKey := by decide
  have hne : classKey ≠ methodKey := by decide
  have hat : ∀ {i name}, IsNameAt methodKey methodName?
      ((nameFirst classKey className? ps).map Piece.token) i name ↔
        IsNameAt methodKey methodName? (ps.map Piece.token) i name :=
    isNameAt_nameFirst hmethod hclass hne
  have hkept : ∀ i, (∀ name, ¬ IsNameAt classKey className? (ps.map Piece.token) i name) →
      (∀ name, ¬ IsNameAt methodKey methodName? (ps.map Piece.token) i name) →
      ((nameFirst methodKey methodName? (nameFirst classKey className? ps)).map
        Piece.token)[i]? = (ps.map Piece.token)[i]? := by
    intro i hnoClass hnoMethod
    rw [getElem?_nameFirst_of_not hmethod fun name hname => hnoMethod name (hat.1 hname),
      getElem?_nameFirst_of_not hclass hnoClass]
  refine ⟨?_, ?_, hkept, ?_⟩
  · intro i name hname
    rw [getElem?_nameFirst_of_not hmethod, getElem?_nameFirst hclass hname]
    -- this token has the key of the class, and so not that of the method
    rintro other hother
    rcases hname with ⟨value, -, hfirst, -⟩
    rcases hat.1 hother with ⟨value', -, hfirst', -⟩
    have hvalue := valueOf?_self hmethod value'
    rw [← Option.some.inj (hfirst.here.symm.trans hfirst'.here), valueOf?_other hclass hne]
      at hvalue
    cases hvalue
  · intro i name hname
    exact getElem?_nameFirst hmethod (hat.2 hname)
  · rcases exists_place classKey className? (ps.map Piece.token) with ⟨i, hi⟩
    rcases exists_place methodKey methodName? (ps.map Piece.token) with ⟨j, hj⟩
    refine ⟨i, j, ?_⟩
    intro k hki hkj
    exact hkept k (fun name hname => hki (hi k name hname)) fun name hname =>
      hkj (hj k name hname)

/-! ## The pieces of a text message -/

/-- A piece of a cut may be replaced by another one with the same gap. -/
theorem IsCut.replace {before after : List Piece} {p q : Piece}
    (h : IsCut (before ++ p :: after)) (hwhole : q.IsWhole) (hgap : q.gap = p.gap)
    (htoken : q.token ≠ []) : IsCut (before ++ q :: after) where
  whole := by
    intro r hr
    rcases List.mem_append.1 hr with hbefore | hr
    · exact h.whole r (List.mem_append_left _ hbefore)
    rcases List.mem_cons.1 hr with rfl | hafter
    · exact hwhole
    · exact h.whole r (List.mem_append_right _ (List.mem_cons_of_mem p hafter))
  chain := by
    rcases List.isChain_append.1 h.chain with ⟨hbefore, hafter, hbetween⟩
    rw [List.isChain_cons] at hafter
    refine List.isChain_append.2 ⟨hbefore, List.isChain_cons.2 ⟨?_, hafter.2⟩, ?_⟩
    · rw [hgap]
      exact hafter.1
    · intro r hr s hs
      obtain rfl : q = s := Option.some.inj hs
      exact ⟨(hbetween r hr p rfl).1, htoken⟩

/-- A token stays whole when its value gets a name. -/
theorem isWhole_named {key : Text} (hkey : Field.isName key = true) {name? : Nat → Option String}
    (hname : IsNaming name?) {value gap : Text} (h : Piece.IsWhole ⟨key ++ '=' :: value, gap⟩) :
    Piece.IsWhole ⟨key ++ '=' :: named name? value, gap⟩ := by
  cases hresolve : resolve? name? value with
  | none => simpa [named, hresolve] using h
  | some text =>
      rcases resolve?_eq_some_iff.1 hresolve with ⟨n, name, -, -, hsome, rfl⟩
      have hbare : ∀ c ∈ key ++ '=' :: name.toList, c ≠ '"' ∧ c ≠ ' ' := by
        intro c hc
        rcases List.mem_append.1 hc with hc | hc
        · rcases (Field.isName_iff.1 hkey).2.2 c hc with ⟨hspace, -, hquote⟩
          exact ⟨hquote, hspace⟩
        rcases List.mem_cons.1 hc with rfl | hc
        · decide
        · exact hname.ne_of_mem hsome hc
      rcases Mode.plain_of_bare hbare with ⟨hpasses, hplain⟩
      simp only [named, hresolve, Option.getD_some]
      exact {
        passes := hpasses
        plain_after := fun _ => hplain
        gap_spaces := h.gap_spaces
        text_ne_nil := by simp [Piece.text] }

/-- The pieces of a cut are still a cut when a name is given. -/
theorem isCut_nameFirst {key : Text} (hkey : Field.isName key = true)
    {name? : Nat → Option String} (hname : IsNaming name?) {ps : List Piece} (h : IsCut ps) :
    IsCut (nameFirst key name? ps) := by
  rcases nameFirst_cases (Field.equals_not_mem hkey) name? ps with
    ⟨-, hsame⟩ | ⟨before, value, gap, after, -, rfl, hnamed⟩
  · rw [hsame]
    exact h
  · rw [hnamed]
    have hwhole : Piece.IsWhole ⟨key ++ '=' :: value, gap⟩ := h.whole _ (by simp)
    exact h.replace (isWhole_named hkey hname hwhole) rfl (by simp)

/-- A text message is cut where its line is. -/
theorem pieces_textMessage (line : Text) :
    pieces (textMessage line) =
      nameFirst methodKey methodName? (nameFirst classKey className? (pieces line)) := by
  have hclass : Field.isName classKey = true := by decide
  have hmethod : Field.isName methodKey = true := by decide
  exact pieces_join (isCut_nameFirst hmethod isNaming_methodName
    (isCut_nameFirst hclass isNaming_className (isCut_pieces line)))

/-- The text message of a text message is this message. -/
theorem textMessage_idem (line : Text) : textMessage (textMessage line) = textMessage line := by
  have hclass : '=' ∉ classKey := by decide
  have hmethod : '=' ∉ methodKey := by decide
  have hne : methodKey ≠ classKey := by decide
  rw [textMessage, pieces_textMessage, ← nameFirst_comm hmethod hclass hne,
    nameFirst_idem hclass isNaming_className, nameFirst_idem hmethod isNaming_methodName]
  rfl

/-- The text message of any line is the line with names for the values of two tokens at most: the
first with the key of the class and the first with that of the method.  All other tokens and all
gaps stay, and so does the message when it is taken for a line. -/
theorem isNamed_textMessage (line : Text) :
    IsNamed ((pieces line).map Piece.token) ((pieces (textMessage line)).map Piece.token) ∧
      (pieces (textMessage line)).map Piece.gap = (pieces line).map Piece.gap ∧
      textMessage (textMessage line) = textMessage line := by
  refine ⟨?_, ?_, textMessage_idem line⟩
  · rw [pieces_textMessage]
    exact isNamed_nameFirst (pieces line)
  · rw [pieces_textMessage, gaps_nameFirst (by decide), gaps_nameFirst (by decide)]

end Line

end EventLog
