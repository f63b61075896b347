import EventLog.Json
import EventLog.Proofs.Text.Decimal

/-!
# Reading JSON objects

A reader of flat JSON objects, whose values are unsigned numbers and strings.  It takes blanks
wherever they may stand, every escape of a string, also a character that is written as two
escaped halves, and numbers without leading zeros.  Members are read in their order.

Main results:

- `Json.readText?_escaped`: a written string reads back, whatever follows it.
- `Json.readMembersUpTo_write`: written members read back.
- `Json.read?_write`: the written form of an object reads as this object.
-/

namespace EventLog

namespace Json

/-! ## Strings -/

/-- The character that a letter behind a backslash stands for. -/
def shortEscape? : Char → Option Char
  | '"' => some '"'
  | '\\' => some '\\'
  | '/' => some '/'
  | 'b' => some '\x08'
  | 'f' => some '\x0c'
  | 'n' => some '\n'
  | 'r' => some '\r'
  | 't' => some '\t'
  | _ => none

/-- The value of a hexadecimal digit. -/
def hexDigit? (c : Char) : Option Nat :=
  if '0' ≤ c ∧ c ≤ '9' then some (c.toNat - '0'.toNat)
  else if 'a' ≤ c ∧ c ≤ 'f' then some (c.toNat - 'a'.toNat + 10)
  else if 'A' ≤ c ∧ c ≤ 'F' then some (c.toNat - 'A'.toNat + 10)
  else none

/-- The number that the four hexadecimal digits in front of a text make. -/
def codeUnit? : Text → Option Nat
  | a :: b :: c :: d :: _ => do
    let a ← hexDigit? a
    let b ← hexDigit? b
    let c ← hexDigit? c
    let d ← hexDigit? d
    return ((a * 16 + b) * 16 + c) * 16 + d
  | _ => none

/-- The number is the first half of a character in two halves. -/
def isHighHalf (n : Nat) : Bool := 0xD800 ≤ n && n < 0xDC00

/-- The number is the second half of a character in two halves. -/
def isLowHalf (n : Nat) : Bool := 0xDC00 ≤ n && n < 0xE000

/-- The character in two halves. -/
def ofHalves (high low : Nat) : Char :=
  Char.ofNat (0x10000 + (high - 0xD800) * 0x400 + (low - 0xDC00))

/-- The second half of a character, in an escape of its own. -/
def lowHalf? : Text → Option Nat
  | '\\' :: 'u' :: s => (codeUnit? s).filter fun n => isLowHalf n
  | _ => none

/-- The character that is escaped in front of a text, behind the backslash, and the number of
characters that its escape takes. -/
def readEscape? : Text → Option (Char × Nat)
  | [] => none
  | c :: s =>
    if c = 'u' then
      (codeUnit? s).bind fun n =>
        if isHighHalf n then (lowHalf? (s.drop 4)).map fun low => (ofHalves n low, 11)
        else if isLowHalf n then none
        else some (Char.ofNat n, 5)
    else (shortEscape? c).map fun d => (d, 1)

/-- Reads a string behind its opening quote, and what follows its closing one. -/
def readText? : Text → Option (Text × Text)
  | [] => none
  | c :: s =>
    if c = '"' then some ([], s)
    else if c = '\\' then
      match readEscape? s with
      | none => none
      | some (d, n) => (readText? (s.drop n)).map fun (t, rest) => (d :: t, rest)
    else if c.toNat < 0x20 then none
    else (readText? s).map fun (t, rest) => (c :: t, rest)
termination_by s => s.length
decreasing_by
  all_goals simp only [List.length_drop, List.length_cons]; omega

/-! ## Objects -/

/-- The characters that may stand between the parts of an object. -/
def isBlank (c : Char) : Bool := c = ' ' || c = '\t' || c = '\n' || c = '\r'

/-- Without the blanks in front. -/
def skipBlanks (s : Text) : Text := s.dropWhile isBlank

/-- What follows a character in front of a text. -/
def expect? (c : Char) : Text → Option Text
  | [] => none
  | d :: s => if d = c then some s else none

/-- Reads a number of digits, the first of which is zero only if it is the only one. -/
def readNumber? (s : Text) : Option (Nat × Text) :=
  let digits := s.takeWhile Char.isDigit
  if digits = [] ∨ (digits.head? = some '0' ∧ digits ≠ ['0']) then none
  else some (Nat.ofDigitChars 10 digits 0, s.dropWhile Char.isDigit)

/-- Reads a value: a string behind a quote, or else a number. -/
def readValue? (s : Text) : Option (Value × Text) :=
  match expect? '"' s with
  | some quoted => (readText? quoted).map fun (t, rest) => (.text t, rest)
  | none => (readNumber? s).map fun (n, rest) => (.number n, rest)

/-- Reads a member: a key, a colon and a value. -/
def readMember? (s : Text) : Option ((Text × Value) × Text) := do
  let quoted ← expect? '"' (skipBlanks s)
  let (key, rest) ← readText? quoted
  let rest ← expect? ':' (skipBlanks rest)
  let (value, rest) ← readValue? (skipBlanks rest)
  return ((key, value), skipBlanks rest)

/-- Reads members up to the closing brace, at most a number of them. -/
def readMembersUpTo : Nat → Text → Option (Object × Text)
  | 0, _ => none
  | fuel + 1, s =>
    (readMember? s).bind fun (m, rest) =>
      match expect? '\x7d' rest with
      | some rest => some ([m], rest)
      | none =>
        (expect? ',' rest).bind fun rest =>
          (readMembersUpTo fuel rest).map fun (ms, rest) => (m :: ms, rest)

/-- Reads what follows the opening brace.  There are fewer members than characters. -/
def readMembers? (s : Text) : Option (Object × Text) :=
  match expect? '\x7d' s with
  | some rest => some ([], rest)
  | none => readMembersUpTo s.length s

/-- Reads a text as a flat object with nothing but blanks around it. -/
def read? (s : Text) : Option Object := do
  let inner ← expect? '\x7b' (skipBlanks s)
  let (o, rest) ← readMembers? (skipBlanks inner)
  if skipBlanks rest = [] then some o else none

/-! ## Strings read back -/

/-- A digit of a code below that of the space reads back. -/
theorem hexDigit?_digitChar {n : Nat} (h : n < 16) : hexDigit? (Nat.digitChar n) = some n := by
  have hall : ∀ m : Fin 16, hexDigit? (Nat.digitChar m.val) = some m.val := by decide
  exact hall ⟨n, h⟩

/-- The escape of a character by its code reads back. -/
theorem readEscape?_code {c : Char} (h : c.toNat < 0x20) (rest : Text) :
    readEscape? ('u' :: '0' :: '0' :: Nat.digitChar (c.toNat / 16) ::
      Nat.digitChar (c.toNat % 16) :: rest) = some (c, 5) := by
  have hhigh : hexDigit? (Nat.digitChar (c.toNat / 16)) = some (c.toNat / 16) :=
    hexDigit?_digitChar (by omega)
  have hlow : hexDigit? (Nat.digitChar (c.toNat % 16)) = some (c.toNat % 16) :=
    hexDigit?_digitChar (by omega)
  have hzero : hexDigit? '0' = some 0 := by decide
  have hcode : codeUnit? ('0' :: '0' :: Nat.digitChar (c.toNat / 16) ::
      Nat.digitChar (c.toNat % 16) :: rest) = some c.toNat := by
    simp only [codeUnit?, hzero, hhigh, hlow, bind, Option.bind, pure, Option.some.injEq]
    omega
  have hnohigh : isHighHalf c.toNat = false := by
    simp only [isHighHalf, Bool.and_eq_false_iff, decide_eq_false_iff_not]
    omega
  have hnolow : isLowHalf c.toNat = false := by
    simp only [isLowHalf, Bool.and_eq_false_iff, decide_eq_false_iff_not]
    omega
  simp [readEscape?, hcode, hnohigh, hnolow]

/-- A written character reads back, whatever follows it. -/
theorem readText?_escape_append (c : Char) (rest : Text) :
    readText? (escape c ++ rest) = (readText? rest).map fun (t, rest) => (c :: t, rest) := by
  by_cases hquote : c = '"'
  · simp [escape, hquote, readText?, readEscape?, shortEscape?]
  by_cases hbackslash : c = '\\'
  · simp [escape, hbackslash, readText?, readEscape?, shortEscape?]
  by_cases hbackspace : c = '\x08'
  · simp [escape, hbackspace, readText?, readEscape?, shortEscape?]
  by_cases htab : c = '\t'
  · simp [escape, htab, readText?, readEscape?, shortEscape?]
  by_cases hnewline : c = '\n'
  · simp [escape, hnewline, readText?, readEscape?, shortEscape?]
  by_cases hfeed : c = '\x0c'
  · simp [escape, hfeed, readText?, readEscape?, shortEscape?]
  by_cases hreturn : c = '\r'
  · simp [escape, hreturn, readText?, readEscape?, shortEscape?]
  have hplain : escape c = if c.toNat < 0x20 then
      ['\\', 'u', '0', '0', Nat.digitChar (c.toNat / 16), Nat.digitChar (c.toNat % 16)]
      else [c] := by
    simp [escape, hquote, hbackslash, hbackspace, htab, hnewline, hfeed, hreturn]
  by_cases hcontrol : c.toNat < 0x20
  · rw [hplain, if_pos hcontrol, List.cons_append, readText?]
    simp [readEscape?_code hcontrol]
  · rw [hplain, if_neg hcontrol, List.singleton_append, readText?, if_neg hquote,
      if_neg hbackslash, if_neg hcontrol]

/-- A written string reads back, whatever follows it. -/
theorem readText?_escaped (s rest : Text) :
    readText? (s.flatMap escape ++ '"' :: rest) = some (s, rest) := by
  induction s with
  | nil => simp [readText?]
  | cons c s ih => rw [List.flatMap_cons, List.append_assoc, readText?_escape_append, ih]; rfl

/-! ## Values and members read back -/

/-- No blank stands in front of a written value. -/
theorem skipBlanks_write (v : Value) (rest : Text) :
    skipBlanks (v.write ++ rest) = v.write ++ rest := by
  cases v with
  | number n =>
      have hblank : ∀ c ∈ Decimal.write n, isBlank c = false := by
        intro c hc
        have hne : ∀ d : Char, d.isDigit = false → c ≠ d := by
          intro d hd
          exact Decimal.ne_of_mem_write hc hd
        simp [isBlank, hne ' ' rfl, hne '\t' rfl, hne '\n' rfl, hne '\r' rfl]
      cases hwrite : Decimal.write n with
      | nil => exact absurd hwrite (Decimal.write_ne_nil n)
      | cons c s =>
          have hc : isBlank c = false := hblank c (by simp [hwrite])
          simp [Value.write, hwrite, skipBlanks, hc]
  | text s => rfl

/-- A written number reads back up to what follows it. -/
theorem readNumber?_write (n : Nat) {c : Char} (hc : c.isDigit = false) (rest : Text) :
    readNumber? (Decimal.write n ++ c :: rest) = some (n, c :: rest) := by
  have hdigits : ∀ d ∈ Decimal.write n, d.isDigit = true := fun d hd =>
    Decimal.isDigit_of_mem_write hd
  have htake : (Decimal.write n ++ c :: rest).takeWhile Char.isDigit = Decimal.write n := by
    rw [List.takeWhile_append_of_pos hdigits, List.takeWhile_cons_of_neg (by simp [hc]),
      List.append_nil]
  have hdrop : (Decimal.write n ++ c :: rest).dropWhile Char.isDigit = c :: rest := by
    rw [List.dropWhile_append_of_pos hdigits, List.dropWhile_cons_of_neg (by simp [hc])]
  have hzeros : ¬ ((Decimal.write n).head? = some '0' ∧ Decimal.write n ≠ ['0']) := by
    rintro ⟨hhead, hne⟩
    by_cases hzero : n = 0
    · subst hzero
      exact hne rfl
    · exact Decimal.head?_write_ne hzero hhead
  have hvalue : Nat.ofDigitChars 10 (Decimal.write n) 0 = n := Nat.ofDigitChars_ten_toDigits
  simp only [readNumber?, htake, hdrop, hvalue, if_neg (not_or.2 ⟨Decimal.write_ne_nil n, hzeros⟩)]

/-- A written value reads back up to what follows it. -/
theorem readValue?_write (v : Value) {c : Char} (hc : c.isDigit = false) (rest : Text) :
    readValue? (v.write ++ c :: rest) = some (v, c :: rest) := by
  cases v with
  | number n =>
      have hquote : expect? '"' (Decimal.write n ++ c :: rest) = none := by
        cases hwrite : Decimal.write n with
        | nil => exact absurd hwrite (Decimal.write_ne_nil n)
        | cons d s =>
            have hd : d ∈ Decimal.write n := by simp [hwrite]
            rw [List.cons_append, expect?, if_neg (Decimal.ne_of_mem_write hd (by decide))]
      simp [readValue?, Value.write, hquote, readNumber?_write n hc]
  | text s => simp [readValue?, Value.write, writeText, expect?, readText?_escaped]

/-- A written member reads back up to a mark that follows it. -/
theorem readMember?_write (m : Text × Value) {c : Char} (hdigit : c.isDigit = false)
    (hblank : isBlank c = false) (rest : Text) :
    readMember? (Object.writeMember m ++ c :: rest) = some (m, c :: rest) := by
  have hkey : skipBlanks (Object.writeMember m ++ c :: rest) =
      '"' :: (m.1.flatMap escape ++ '"' :: ':' :: (m.2.write ++ c :: rest)) := by
    simp [Object.writeMember, writeText, skipBlanks, isBlank]
  have hcolon : skipBlanks (':' :: (m.2.write ++ c :: rest)) =
      ':' :: (m.2.write ++ c :: rest) := rfl
  have hend : skipBlanks (c :: rest) = c :: rest := by simp [skipBlanks, hblank]
  simp [readMember?, hkey, expect?, readText?_escaped, hcolon, skipBlanks_write,
    readValue?_write m.2 hdigit, hend]

/-! ## Objects read back -/

/-- Written members read back, up to the closing brace. -/
theorem readMembersUpTo_write {ms : Object} (hne : ms ≠ []) {fuel : Nat}
    (hfuel : ms.length ≤ fuel) (rest : Text) :
    readMembersUpTo fuel ([','].intercalate (ms.map Object.writeMember) ++ '\x7d' :: rest) =
      some (ms, rest) := by
  -- each member takes one unit of the fuel
  induction ms generalizing fuel with
  | nil => exact absurd rfl hne
  | cons m ms ih =>
      cases fuel with
      | zero => simp at hfuel
      | succ fuel =>
          cases ms with
          | nil =>
              have hmember := readMember?_write m (c := '\x7d') (by decide) (by decide) rest
              simp [readMembersUpTo, hmember, expect?]
          | cons m' ms =>
              have hmembers := ih (List.cons_ne_nil m' ms) (Nat.le_of_succ_le_succ hfuel)
              rw [List.map_cons] at hmembers
              rw [List.map_cons, List.map_cons, List.intercalate_cons_cons, List.append_assoc,
                List.append_assoc, List.singleton_append, readMembersUpTo,
                readMember?_write m (by decide) (by decide)]
              simp [expect?, hmembers]

/-- There are no more members than characters between the braces. -/
theorem length_le_intercalate (ms : Object) :
    ms.length ≤ ([','].intercalate (ms.map Object.writeMember)).length := by
  induction ms with
  | nil => simp
  | cons m ms ih =>
      cases ms with
      | nil => simp [Object.writeMember, writeText]
      | cons m' ms =>
          rw [List.map_cons, List.map_cons, List.intercalate_cons_cons]
          simp only [List.map_cons, List.length_append, List.length_cons] at ih ⊢
          omega

/-- Written members start with the quote of their first key. -/
theorem exists_intercalate_eq_cons (m : Text × Value) (ms : Object) :
    ∃ s, [','].intercalate ((m :: ms).map Object.writeMember) = '"' :: s := by
  cases ms with
  | nil => exact ⟨_, rfl⟩
  | cons m' ms => exact ⟨_, rfl⟩

/-- What follows the opening brace of a written object reads as its members. -/
theorem readMembers?_write (o : Object) (rest : Text) :
    readMembers? ([','].intercalate (o.map Object.writeMember) ++ '\x7d' :: rest) =
      some (o, rest) := by
  cases o with
  | nil => rfl
  | cons m ms =>
      have hfuel : (m :: ms).length ≤
          ([','].intercalate ((m :: ms).map Object.writeMember) ++ '\x7d' :: rest).length := by
        rw [List.length_append]
        exact Nat.le_add_right_of_le (length_le_intercalate (m :: ms))
      have hmembers := readMembersUpTo_write (List.cons_ne_nil m ms) hfuel rest
      rcases exists_intercalate_eq_cons m ms with ⟨s, hs⟩
      rw [hs] at hmembers ⊢
      exact hmembers

/-- No blank stands behind the opening brace of a written object. -/
theorem skipBlanks_intercalate (o : Object) :
    skipBlanks ([','].intercalate (o.map Object.writeMember) ++ ['\x7d']) =
      [','].intercalate (o.map Object.writeMember) ++ ['\x7d'] := by
  cases o with
  | nil => rfl
  | cons m ms =>
      rcases exists_intercalate_eq_cons m ms with ⟨s, hs⟩
      rw [hs]
      rfl

/-- The written form of an object reads as this object. -/
theorem read?_write (o : Object) : read? o.write = some o := by
  have hopen : expect? '\x7b' (skipBlanks o.write) =
      some ([','].intercalate (o.map Object.writeMember) ++ ['\x7d']) := rfl
  have hmembers : readMembers? (skipBlanks
      ([','].intercalate (o.map Object.writeMember) ++ ['\x7d'])) = some (o, []) := by
    rw [skipBlanks_intercalate, readMembers?_write]
  have hend : skipBlanks [] = [] := rfl
  simp [read?, hopen, hmembers, hend]

end Json

end EventLog
