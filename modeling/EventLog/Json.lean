import EventLog.Text.Decimal

/-!
# Flat JSON objects

The objects that messages are framed in: members in insertion order, each a number
or a string, written without spaces.

Main result:

- `Json.Object.get?_insertNew`: inserting under a key that is there changes nothing,
  and under any other key adds that member alone.
-/

namespace EventLog

namespace Json

/-! ## Values -/

/-- The value of a member. -/
inductive Value where
  | number (n : Nat)
  | text (s : Text)
  deriving DecidableEq, Repr

/-- One character of a string.  A quote, a backslash and every character below the
space are escaped, all others stand for themselves. -/
def escape (c : Char) : Text :=
  if c = '"' then ['\\', '"']
  else if c = '\\' then ['\\', '\\']
  else if c = '\x08' then ['\\', 'b']
  else if c = '\t' then ['\\', 't']
  else if c = '\n' then ['\\', 'n']
  else if c = '\x0c' then ['\\', 'f']
  else if c = '\r' then ['\\', 'r']
  else if c.toNat < 0x20 then
    ['\\', 'u', '0', '0', Nat.digitChar (c.toNat / 16), Nat.digitChar (c.toNat % 16)]
  else [c]

/-- A string between its quotes. -/
def writeText (s : Text) : Text :=
  '"' :: s.flatMap escape ++ ['"']

/-- The written form of a value. -/
def Value.write : Value → Text
  | number n => Decimal.write n
  | text s => writeText s

/-! ## Objects -/

/-- Members in insertion order. -/
abbrev Object := List (Text × Value)

namespace Object

/-- The value under a key. -/
def get? (o : Object) (key : Text) : Option Value :=
  (o.find? fun m => m.1 = key).map Prod.snd

/-- Adds a member at the end, unless its key is there already. -/
def insertNew (o : Object) (key : Text) (value : Value) : Object :=
  if o.any fun m => m.1 = key then o else o ++ [(key, value)]

/-- The first-wins object of members in order. -/
def ofMembers (members : List (Text × Value)) : Object :=
  members.foldl (fun o m => o.insertNew m.1 m.2) []

/-- The written form of a member. -/
def writeMember (m : Text × Value) : Text :=
  writeText m.1 ++ ':' :: m.2.write

/-- The written form of an object. -/
def write (o : Object) : Text :=
  '\x7b' :: [','].intercalate (o.map writeMember) ++ ['\x7d']

/-- Inserting keeps the members that are there. -/
theorem get?_insertNew (o : Object) (key other : Text) (value : Value) :
    (o.insertNew key value).get? other =
      (o.get? other).or (if key = other then some value else none) := by
  unfold insertNew get?
  split
  · rename_i hkey
    by_cases h : key = other
    · subst h
      obtain ⟨m, hm, hmk⟩ := List.any_eq_true.1 hkey
      have : (o.find? fun m => m.1 = key).isSome := List.find?_isSome.2 ⟨m, hm, hmk⟩
      obtain ⟨v, hv⟩ := Option.isSome_iff_exists.1 this
      simp [hv]
    · simp [h]
  · rw [List.find?_append]
    cases h : o.find? fun m => m.1 = other with
    | some v => simp
    | none => by_cases h : key = other <;> simp [h]

end Object

end Json

end EventLog
