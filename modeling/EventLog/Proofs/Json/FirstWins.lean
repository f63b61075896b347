import EventLog.Json

/-!
# First-wins objects

An object keeps, of the members that it is made of, the first one of each key.  Here this is
said without the insertions, one after the other, that make the object.

Main results:

- `Json.Object.ofMembers_eq_firstWins`: inserting members in order keeps the first of each key.
- `Json.Object.nodup_firstWins` and `Json.Object.get?_firstWins`: every key is left once, with
  its first value.
- `Json.Object.firstWins_of_nodup`: members with different keys are all kept, in order.
- `Json.Object.firstWins_onKey`: another value in the first member with a key is another value
  under this key.
-/

namespace EventLog

namespace Json.Object

/-! ## The first member of each key -/

/-- Members in order without those whose key stands further in front. -/
def firstWins : List (Text × Value) → Object
  | [] => []
  | m :: ms => m :: (firstWins ms).filter fun n => n.1 ≠ m.1

/-- Nothing is left out of members with different keys. -/
theorem firstWins_of_nodup {ms : List (Text × Value)} (h : (ms.map Prod.fst).Nodup) :
    firstWins ms = ms := by
  induction ms with
  | nil => rfl
  | cons m ms ih =>
      rw [List.map_cons, List.nodup_cons] at h
      rw [firstWins, ih h.2, List.filter_eq_self.2]
      intro n hn
      have hne : n.1 ≠ m.1 := by
        intro heq
        exact h.1 (heq ▸ List.mem_map_of_mem hn)
      simpa using hne

/-- No key is left twice. -/
theorem nodup_firstWins (ms : List (Text × Value)) : ((firstWins ms).map Prod.fst).Nodup := by
  induction ms with
  | nil => exact List.nodup_nil
  | cons m ms ih =>
      rw [firstWins, List.map_cons, List.nodup_cons]
      constructor
      · intro hmem
        rcases List.mem_map.1 hmem with ⟨n, hn, hkey⟩
        exact absurd hkey (by simpa using (List.mem_filter.1 hn).2)
      · exact ih.sublist (List.Sublist.map Prod.fst List.filter_sublist)

/-- A key is left with its first value. -/
theorem get?_firstWins (ms : List (Text × Value)) (key : Text) :
    (firstWins ms).get? key = get? ms key := by
  induction ms with
  | nil => rfl
  | cons m ms ih =>
      by_cases hkey : m.1 = key
      · simp [firstWins, get?, hkey]
      · have hfilter : ((firstWins ms).filter fun n => n.1 ≠ m.1).find? (fun n => n.1 = key) =
            (firstWins ms).find? fun n => n.1 = key := by
          rw [List.find?_filter]
          congr 1
          funext n
          have hne : n.1 = key → n.1 ≠ m.1 := fun hn hm => hkey (hm ▸ hn)
          simpa using hne
        rw [get?, get?, firstWins, List.find?_cons_of_neg (by simpa using hkey), hfilter,
          List.find?_cons_of_neg (by simpa using hkey)]
        exact ih

/-- Only members are left. -/
theorem firstWins_sublist (ms : List (Text × Value)) : (firstWins ms).Sublist ms := by
  induction ms with
  | nil => exact List.Sublist.slnil
  | cons m ms ih => exact (List.filter_sublist.trans ih).cons_cons m

/-! ## Changing a value -/

/-- The member with its value changed, if it has the key. -/
def onKey (key : Text) (f : Value → Value) (m : Text × Value) : Text × Value :=
  if m.1 = key then (m.1, f m.2) else m

@[simp] theorem onKey_self (key : Text) (f : Value → Value) (v : Value) :
    onKey key f (key, v) = (key, f v) :=
  if_pos rfl

theorem onKey_of_ne {key : Text} {m : Text × Value} (h : m.1 ≠ key) (f : Value → Value) :
    onKey key f m = m :=
  if_neg h

@[simp] theorem onKey_fst (key : Text) (f : Value → Value) (m : Text × Value) :
    (onKey key f m).1 = m.1 := by
  unfold onKey
  split <;> rfl

/-- Without the key nothing is changed. -/
theorem map_onKey_of_not_mem {key : Text} {ms : List (Text × Value)} (h : key ∉ ms.map Prod.fst)
    (f : Value → Value) : ms.map (onKey key f) = ms := by
  refine (List.map_congr_left ?_).trans (List.map_id ms)
  intro m hm
  have hne : m.1 ≠ key := by
    rintro rfl
    exact h (List.mem_map_of_mem hm)
  exact onKey_of_ne hne f

/-- Members are left out by their keys alone. -/
theorem filter_map_onKey (key : Text) (f : Value → Value) (other : Text)
    (ms : List (Text × Value)) :
    (ms.map (onKey key f)).filter (fun n => n.1 ≠ other) =
      (ms.filter fun n => n.1 ≠ other).map (onKey key f) := by
  rw [List.filter_map]
  congr 1
  apply List.filter_congr
  intro n _
  simp

/-- Another value in the first member with a key is another value under this key. -/
theorem firstWins_onKey {key : Text} {before : List (Text × Value)}
    (h : key ∉ before.map Prod.fst) (f : Value → Value) (v : Value)
    (after : List (Text × Value)) :
    firstWins (before ++ (key, f v) :: after) =
      (firstWins (before ++ (key, v) :: after)).map (onKey key f) := by
  induction before with
  | nil =>
      have hkept : key ∉ ((firstWins after).filter fun n => n.1 ≠ key).map Prod.fst := by
        simp
      rw [List.nil_append, List.nil_append, firstWins, firstWins, List.map_cons, onKey_self,
        map_onKey_of_not_mem hkept]
  | cons m before ih =>
      rw [List.map_cons, List.mem_cons, not_or] at h
      rw [List.cons_append, List.cons_append, firstWins, firstWins, ih h.2, filter_map_onKey,
        List.map_cons, onKey_of_ne (Ne.symm h.1)]

/-! ## Inserting in order -/

theorem insertNew_of_not_mem {o : Object} {key : Text} (h : key ∉ o.map Prod.fst)
    (value : Value) : o.insertNew key value = o ++ [(key, value)] := by
  have hany : ¬ (o.any fun m => m.1 = key) = true := by
    intro hany
    rcases List.any_eq_true.1 hany with ⟨m, hm, hkey⟩
    exact h (List.mem_map.2 ⟨m, hm, by simpa using hkey⟩)
  rw [insertNew, if_neg hany]

theorem insertNew_of_mem {o : Object} {key : Text} (h : key ∈ o.map Prod.fst) (value : Value) :
    o.insertNew key value = o := by
  rcases List.mem_map.1 h with ⟨m, hm, hkey⟩
  rw [insertNew, if_pos (List.any_eq_true.2 ⟨m, hm, by simpa using hkey⟩)]

/-- Inserting members in order adds the first of each key that the object does not have. -/
theorem foldl_insertNew (ms : List (Text × Value)) (o : Object) :
    ms.foldl (fun o m => o.insertNew m.1 m.2) o =
      o ++ (firstWins ms).filter fun n => n.1 ∉ o.map Prod.fst := by
  induction ms generalizing o with
  | nil => simp [firstWins]
  | cons m ms ih =>
      rw [List.foldl_cons, ih, firstWins]
      by_cases hmem : m.1 ∈ o.map Prod.fst
      · rw [insertNew_of_mem hmem, List.filter_cons_of_neg (by simpa using hmem),
          List.filter_filter]
        congr 1
        apply List.filter_congr
        intro n _
        -- what repeats the left out key is left out for the same reason
        have hne : n.1 ∉ o.map Prod.fst → n.1 ≠ m.1 := fun hn heq => hn (heq ▸ hmem)
        simpa using hne
      · rw [insertNew_of_not_mem hmem, List.filter_cons_of_pos (by simpa using hmem),
          List.filter_filter, List.append_assoc, List.singleton_append]
        congr 2
        apply List.filter_congr
        intro n _
        have hkeys : n.1 ∉ (o ++ [(m.1, m.2)]).map Prod.fst ↔
            n.1 ∉ o.map Prod.fst ∧ n.1 ≠ m.1 := by
          simp
        rw [decide_eq_decide.2 hkeys, Bool.decide_and]

/-- Inserting members in order keeps the first of each key. -/
theorem ofMembers_eq_firstWins (ms : List (Text × Value)) : ofMembers ms = firstWins ms := by
  rw [ofMembers, foldl_insertNew]
  simp

end Json.Object

end EventLog
