import EventLog.Text.Basic

/-!
# Character boundaries

In the bytes of a text a place lies between two characters exactly if no byte there continues a
character.  The longest prefix within a number of bytes is so found in the bytes alone: by going
down from that number to the first such place.

Main results:

- `Text.isBoundary_utf8_iff`: the boundaries in the bytes of a text are the ends of its prefixes.
- `Text.lastBoundary?_utf8`: the search for a boundary ends behind the cut text.
- `Text.takeBytes_takeBytes`: a text that is cut twice is cut at the smaller bound.
-/

namespace EventLog

namespace Text

/-! ## Cut texts as longest prefixes -/

/-- A prefix takes no more bytes than the text. -/
theorem byteLength_le_of_isPrefix {s t : Text} (h : t <+: s) : byteLength t ≤ byteLength s := by
  rcases h with ⟨rest, rfl⟩
  rw [byteLength_append]
  exact Nat.le_add_right _ _

/-- The text `t` is the longest prefix of `s` that takes at most `n` bytes. -/
structure IsLongest (n : Nat) (s t : Text) : Prop where
  prefix_of : t <+: s
  fits : byteLength t ≤ n
  longest : ∀ u, u <+: s → byteLength u ≤ n → u <+: t

theorem isLongest_takeBytes (n : Nat) (s : Text) : IsLongest n s (takeBytes n s) where
  prefix_of := takeBytes_isPrefix n s
  fits := byteLength_takeBytes_le n s
  longest := fun _ hu hn => isPrefix_takeBytes hu hn

/-- There is only one longest prefix. -/
theorem IsLongest.eq {n : Nat} {s t u : Text} (ht : IsLongest n s t) (hu : IsLongest n s u) :
    t = u := by
  have htu := hu.longest t ht.prefix_of ht.fits
  have hut := ht.longest u hu.prefix_of hu.fits
  exact htu.eq_of_length (Nat.le_antisymm htu.length_le hut.length_le)

/-- A text that fits is not cut. -/
theorem takeBytes_of_fits {n : Nat} {s : Text} (h : byteLength s ≤ n) : takeBytes n s = s :=
  (isLongest_takeBytes n s).eq
    { prefix_of := List.prefix_rfl
      fits := h
      longest := fun _ hu _ => hu }

/-- A text that is cut twice is cut at the smaller bound. -/
theorem takeBytes_takeBytes (m n : Nat) (s : Text) :
    takeBytes m (takeBytes n s) = takeBytes (min n m) s := by
  have hfirst := isLongest_takeBytes n s
  have hsecond := isLongest_takeBytes m (takeBytes n s)
  have htwice : IsLongest (min n m) s (takeBytes m (takeBytes n s)) := {
    prefix_of := hsecond.prefix_of.trans hfirst.prefix_of
    fits := by
      have hlength := byteLength_le_of_isPrefix hsecond.prefix_of
      have := hfirst.fits
      have := hsecond.fits
      omega
    longest := by
      intro u hu hfits
      exact hsecond.longest u (hfirst.longest u hu (by omega)) (by omega) }
  exact htwice.eq (isLongest_takeBytes (min n m) s)

/-! ## Boundaries in bytes -/

/-- The byte continues a character that begins before it. -/
def isContinuation (b : UInt8) : Bool :=
  128 ≤ b.toNat && b.toNat < 192

/-- A place between two characters: the beginning, the end, or one with a byte that begins a
character behind it. -/
def isBoundary (bytes : List UInt8) (i : Nat) : Bool :=
  i = 0 ||
    match bytes[i]? with
    | none => i = bytes.length
    | some b => !isContinuation b

/-- The last boundary that is not behind a place; `none` if there is none. -/
def lastBoundary? (bytes : List UInt8) : Nat → Option Nat
  | 0 => if isBoundary bytes 0 then some 0 else none
  | i + 1 => if isBoundary bytes (i + 1) then some (i + 1) else lastBoundary? bytes i

theorem isContinuation_ofNat {n : Nat} (h : n < 256) :
    isContinuation (UInt8.ofNat n) = decide (128 ≤ n ∧ n < 192) := by
  rw [isContinuation, UInt8.toNat_ofNat_of_lt' h, Bool.decide_and]

/-- Numbers from 128 up to 191 behind one of another size are continuations of it. -/
theorem isContinuation_of_lead {lead : Nat} (others : List Nat) (hlead : lead < 256)
    (hsize : lead < 128 ∨ 192 ≤ lead) (hothers : ∀ n ∈ others, 128 ≤ n ∧ n < 192) {i : Nat}
    {b : UInt8} (h : ((lead :: others).map UInt8.ofNat)[i]? = some b) :
    isContinuation b = decide (i ≠ 0) := by
  cases i with
  | zero =>
      obtain rfl : UInt8.ofNat lead = b := Option.some.inj h
      rw [isContinuation_ofNat hlead, decide_eq_false (by omega), decide_eq_false (by omega)]
  | succ i =>
      rw [List.map_cons, List.getElem?_cons_succ] at h
      rcases List.mem_map.1 (List.mem_of_getElem? h) with ⟨n, hn, rfl⟩
      have hrange := hothers n hn
      rw [isContinuation_ofNat (by omega), decide_eq_true hrange, decide_eq_true (by omega)]

/-- All bytes of a character but its first one continue it. -/
theorem isContinuation_utf8EncodeChar {c : Char} {i : Nat} {b : UInt8}
    (h : (String.utf8EncodeChar c)[i]? = some b) : isContinuation b = decide (i ≠ 0) := by
  have hother : ∀ n : Nat, 128 ≤ n % 64 + 128 ∧ n % 64 + 128 < 192 := by omega
  -- the cases are those of one to four bytes
  simp only [String.utf8EncodeChar] at h
  split at h
  next => exact isContinuation_of_lead [] (by omega) (by omega) (by simp) h
  split at h
  next => exact isContinuation_of_lead [_] (by omega) (by omega) (by simp [hother]) h
  split at h
  next =>
    exact isContinuation_of_lead [_, _] (by omega) (by omega) (by simp [hother]) h
  next =>
    exact isContinuation_of_lead [_, _, _] (by omega) (by omega) (by simp [hother]) h

theorem utf8_cons (c : Char) (s : Text) : utf8 (c :: s) = String.utf8EncodeChar c ++ utf8 s := rfl

/-- No text begins inside a character. -/
theorem isContinuation_of_utf8_zero {s : Text} {b : UInt8} (h : (utf8 s)[0]? = some b) :
    isContinuation b = false := by
  cases s with
  | nil => cases h
  | cons c s =>
      have hpos : 0 < (String.utf8EncodeChar c).length := by
        rw [String.length_utf8EncodeChar]
        exact c.utf8Size_pos
      rw [utf8_cons, List.getElem?_append_left hpos] at h
      exact isContinuation_utf8EncodeChar h

/-- Inside the first character there is no boundary. -/
theorem isBoundary_inside {c : Char} {i : Nat} (hpos : 0 < i) (hi : i < c.utf8Size) (s : Text) :
    isBoundary (utf8 (c :: s)) i = false := by
  have hlength : i < (String.utf8EncodeChar c).length := by
    rw [String.length_utf8EncodeChar]
    exact hi
  have hbyte : (utf8 (c :: s))[i]? = some (String.utf8EncodeChar c)[i] := by
    rw [utf8_cons, List.getElem?_append_left hlength, List.getElem?_eq_getElem hlength]
  have hcontinues := isContinuation_utf8EncodeChar (List.getElem?_eq_getElem hlength)
  simp [isBoundary, hbyte, hcontinues, Nat.ne_of_gt hpos]

/-- Behind the first character the boundaries are those of the rest. -/
theorem isBoundary_behind (c : Char) (s : Text) (i : Nat) :
    isBoundary (utf8 (c :: s)) (c.utf8Size + i) = isBoundary (utf8 s) i := by
  have hsize := c.utf8Size_pos
  have hbyte : (utf8 (c :: s))[c.utf8Size + i]? = (utf8 s)[i]? := by
    rw [utf8_cons, ← String.length_utf8EncodeChar,
      List.getElem?_append_right (Nat.le_add_right _ _), Nat.add_sub_cancel_left]
  have hlength : (utf8 (c :: s)).length = c.utf8Size + (utf8 s).length := by
    rw [utf8_cons, List.length_append, String.length_utf8EncodeChar]
  rw [isBoundary, isBoundary, hbyte, hlength]
  cases hat : (utf8 s)[i]? with
  | none =>
      have hend := List.getElem?_eq_none_iff.1 hat
      have hi : i = 0 → i = (utf8 s).length := by omega
      simpa [Nat.ne_of_gt hsize] using hi
  | some b =>
      cases i with
      | zero => simp [isContinuation_of_utf8_zero hat]
      | succ i => simp

/-- The boundaries in the bytes of a text are the ends of its prefixes. -/
theorem isBoundary_utf8_iff {s : Text} {i : Nat} :
    isBoundary (utf8 s) i = true ↔ ∃ t, t <+: s ∧ byteLength t = i := by
  induction s generalizing i with
  | nil =>
      constructor
      · intro h
        have hi : i = 0 := by simpa [isBoundary, utf8] using h
        exact ⟨[], List.nil_prefix, hi.symm⟩
      · rintro ⟨t, ht, rfl⟩
        obtain rfl := List.prefix_nil.1 ht
        rfl
  | cons c s ih =>
      rcases Nat.eq_zero_or_pos i with rfl | hpos
      · exact iff_of_true rfl ⟨[], List.nil_prefix, rfl⟩
      rcases Nat.lt_or_ge i c.utf8Size with hinside | hbehind
      · -- a prefix that is not empty takes at least the first character
        rw [isBoundary_inside hpos hinside]
        refine iff_of_false (by simp) ?_
        rintro ⟨t, ht, rfl⟩
        cases t with
        | nil => exact absurd hpos (Nat.lt_irrefl 0)
        | cons d t =>
            obtain rfl := (List.cons_prefix_cons.1 ht).1
            rw [byteLength_cons] at hinside
            omega
      · rcases Nat.exists_eq_add_of_le hbehind with ⟨j, rfl⟩
        rw [isBoundary_behind, ih]
        constructor
        · rintro ⟨t, ht, rfl⟩
          exact ⟨c :: t, List.cons_prefix_cons.2 ⟨rfl, ht⟩, rfl⟩
        · rintro ⟨t, ht, hlength⟩
          cases t with
          | nil =>
              rw [byteLength_nil] at hlength
              omega
          | cons d t =>
              rcases List.cons_prefix_cons.1 ht with ⟨rfl, hrest⟩
              rw [byteLength_cons] at hlength
              exact ⟨t, hrest, by omega⟩

/-! ## The search for a boundary -/

/-- The search finds the last boundary that is not behind a place. -/
theorem lastBoundary?_eq_some_iff {bytes : List UInt8} {n m : Nat} :
    lastBoundary? bytes n = some m ↔
      isBoundary bytes m = true ∧ m ≤ n ∧ ∀ i, isBoundary bytes i = true → i ≤ n → i ≤ m := by
  induction n with
  | zero =>
      have hzero : isBoundary bytes 0 = true := rfl
      rw [lastBoundary?, if_pos hzero, Option.some.injEq]
      constructor
      · rintro rfl
        exact ⟨hzero, Nat.le_refl 0, fun i _ hi => hi⟩
      · rintro ⟨-, hm, -⟩
        exact (Nat.le_zero.1 hm).symm
  | succ n ih =>
      rw [lastBoundary?]
      split
      next hnext =>
        rw [Option.some.injEq]
        constructor
        · rintro rfl
          exact ⟨hnext, Nat.le_refl _, fun i _ hi => hi⟩
        · rintro ⟨-, hm, hlast⟩
          exact Nat.le_antisymm (hlast (n + 1) hnext (Nat.le_refl _)) hm
      next hnext =>
        -- a boundary is not at the place itself, so it is before it
        have hbefore : ∀ i, isBoundary bytes i = true → i ≤ n + 1 → i ≤ n := by
          intro i hi hle
          have hne : i ≠ n + 1 := by
            rintro rfl
            exact hnext hi
          omega
        rw [ih]
        constructor
        · rintro ⟨hm, hle, hlast⟩
          exact ⟨hm, by omega, fun i hi hle => hlast i hi (hbefore i hi hle)⟩
        · rintro ⟨hm, hle, hlast⟩
          exact ⟨hm, hbefore m hm hle, fun i hi hle => hlast i hi (by omega)⟩

/-- The search from a number of bytes downwards ends behind the text that is cut there. -/
theorem lastBoundary?_utf8 (n : Nat) (s : Text) :
    lastBoundary? (utf8 s) (min (utf8 s).length n) = some (byteLength (takeBytes n s)) := by
  have hlongest := isLongest_takeBytes n s
  have hwhole := byteLength_le_of_isPrefix hlongest.prefix_of
  have hfits := hlongest.fits
  rw [lastBoundary?_eq_some_iff, length_utf8]
  refine ⟨isBoundary_utf8_iff.2 ⟨_, hlongest.prefix_of, rfl⟩, by omega, ?_⟩
  intro i hi hle
  rcases isBoundary_utf8_iff.1 hi with ⟨t, ht, rfl⟩
  exact byteLength_le_of_isPrefix (hlongest.longest t ht (by omega))

end Text

end EventLog
