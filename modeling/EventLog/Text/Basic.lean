/-!
# Texts

A text is a list of characters.  This module fixes its size in UTF-8 bytes, its
bytes, and the cut that keeps the longest prefix within a number of bytes; how a text
is split and taken out of a frame; and its blanks, which are the characters with the
Unicode property White_Space.

Main results:

- `Text.takeBytes_isPrefix` and `Text.byteLength_takeBytes_le`: the cut keeps a
  prefix and keeps the bound.
- `Text.isPrefix_takeBytes`: every prefix within the bound is a prefix of the cut.
-/

namespace EventLog

/-- A text: its characters in order. -/
abbrev Text := List Char

namespace Text

/-! ## Bytes -/

/-- The bytes of a text in UTF-8. -/
def utf8 (s : Text) : List UInt8 :=
  s.flatMap String.utf8EncodeChar

/-- The number of bytes that a text takes in UTF-8. -/
def byteLength : Text → Nat
  | [] => 0
  | c :: s => c.utf8Size + byteLength s

@[simp] theorem byteLength_nil : byteLength [] = 0 := rfl

@[simp] theorem byteLength_cons (c : Char) (s : Text) :
    byteLength (c :: s) = c.utf8Size + byteLength s := rfl

/-- Appending adds the byte lengths. -/
@[simp] theorem byteLength_append (s t : Text) :
    byteLength (s ++ t) = byteLength s + byteLength t := by
  induction s with
  | nil => simp
  | cons c s ih => simp [ih, Nat.add_assoc]

/-- The byte length counts the bytes. -/
theorem length_utf8 (s : Text) : (utf8 s).length = byteLength s := by
  induction s with
  | nil => rfl
  | cons c s ih =>
    have h : utf8 (c :: s) = String.utf8EncodeChar c ++ utf8 s := rfl
    simp [h, ih]

/-! ## Cutting at a number of bytes -/

/-- The longest prefix of a text that takes at most `n` bytes. -/
def takeBytes : Nat → Text → Text
  | _, [] => []
  | n, c :: s => if c.utf8Size ≤ n then c :: takeBytes (n - c.utf8Size) s else []

/-- A cut text is a prefix. -/
theorem takeBytes_isPrefix (n : Nat) (s : Text) : takeBytes n s <+: s := by
  induction s generalizing n with
  | nil => simp [takeBytes]
  | cons c s ih =>
    simp only [takeBytes]
    split
    · exact List.cons_prefix_cons.2 ⟨rfl, ih _⟩
    · exact List.nil_prefix

/-- A cut text keeps the bound. -/
theorem byteLength_takeBytes_le (n : Nat) (s : Text) : byteLength (takeBytes n s) ≤ n := by
  induction s generalizing n with
  | nil => simp [takeBytes]
  | cons c s ih =>
    simp only [takeBytes]
    split
    · have := ih (n - c.utf8Size)
      simp only [byteLength_cons]
      omega
    · simp

/-- Every prefix within the bound is a prefix of the cut text. -/
theorem isPrefix_takeBytes {n : Nat} {s t : Text} (ht : t <+: s) (hn : byteLength t ≤ n) :
    t <+: takeBytes n s := by
  induction s generalizing n t with
  | nil => simp_all [takeBytes]
  | cons c s ih =>
    cases t with
    | nil => exact List.nil_prefix
    | cons d t =>
      obtain ⟨rfl, hts⟩ := List.cons_prefix_cons.1 ht
      simp only [byteLength_cons] at hn
      simp only [takeBytes, if_pos (show d.utf8Size ≤ n by omega)]
      exact List.cons_prefix_cons.2 ⟨rfl, ih hts (by omega)⟩

/-! ## Splitting and framing -/

/-- Splits a text around its first `mark`; the mark itself is in neither part. -/
def splitAtFirst? (mark : Char) : Text → Option (Text × Text)
  | [] => none
  | c :: s =>
    if c = mark then some ([], s) else (splitAtFirst? mark s).map fun (a, b) => (c :: a, b)

/-- The text inside a frame: what is left without `opening` in front and then
without `closing` at the end. -/
def unframe? (opening : Text) (closing : Char) (s : Text) : Option Text :=
  match opening.isPrefixOf? s with
  | none => none
  | some rest => if rest.getLast? = some closing then some rest.dropLast else none

/-! ## Blanks -/

/-- The ranges of the property White_Space. -/
def blankRanges : List (Nat × Nat) :=
  [
    (0x0009, 0x000D), (0x0020, 0x0020), (0x0085, 0x0085), (0x00A0, 0x00A0), (0x1680, 0x1680),
    (0x2000, 0x200A), (0x2028, 0x2029), (0x202F, 0x202F), (0x205F, 0x205F), (0x3000, 0x3000)]

/-- The character has the property White_Space. -/
def isBlank (c : Char) : Bool :=
  blankRanges.any fun (low, high) => low ≤ c.toNat && c.toNat ≤ high

/-- Without the blanks at both ends. -/
def trim (s : Text) : Text :=
  ((s.dropWhile isBlank).reverse.dropWhile isBlank).reverse

end Text

end EventLog
