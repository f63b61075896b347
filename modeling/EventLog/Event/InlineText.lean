import EventLog.Text.Basic

/-!
# Inline texts

A text stored in place, in a fixed number of bytes.  A longer text is cut at the
last character boundary that fits.  In memory the bytes of the text are followed
by zeros, and two inline texts are compared by length and bytes.

Main results:

- `InlineText.text_ofText_isPrefix` and `InlineText.isPrefix_text_ofText`: the
  stored text is the longest prefix that fits.
-/

namespace EventLog

/-- A text of at most `capacity` bytes. -/
structure InlineText (capacity : Nat) where
  text : Text
  fits : Text.byteLength text ≤ capacity

namespace InlineText

variable {capacity : Nat}

/-! ## Storing -/

/-- Stores as much of a text as fits. -/
def ofText (s : Text) : InlineText capacity :=
  ⟨Text.takeBytes capacity s, Text.byteLength_takeBytes_le capacity s⟩

/-- The stored text is a prefix of the given one. -/
theorem text_ofText_isPrefix (s : Text) :
    (ofText s : InlineText capacity).text <+: s :=
  Text.takeBytes_isPrefix capacity s

/-- Every prefix that fits is a prefix of the stored text. -/
theorem isPrefix_text_ofText {s t : Text} (ht : t <+: s) (hn : Text.byteLength t ≤ capacity) :
    t <+: (ofText s : InlineText capacity).text :=
  Text.isPrefix_takeBytes ht hn

/-- The empty text. -/
def empty : InlineText capacity :=
  ⟨[], Nat.zero_le _⟩

instance : Inhabited (InlineText capacity) := ⟨empty⟩

/-! ## Bytes in memory -/

/-- The number of bytes in use. -/
def length (a : InlineText capacity) : Nat :=
  Text.byteLength a.text

/-- Nothing is stored. -/
def isEmpty (a : InlineText capacity) : Bool :=
  a.length = 0

/-- All bytes: those of the text, then zeros up to the capacity. -/
def bytes (a : InlineText capacity) : List UInt8 :=
  Text.utf8 a.text ++ List.replicate (capacity - a.length) 0

/-- The text that the first `length` of the given bytes spell; the empty text if
they are not UTF-8. -/
def read (length : Nat) (bytes : List UInt8) : Text :=
  ((String.fromUTF8? ⟨(bytes.take length).toArray⟩).map String.toList).getD []

/-- Inline texts are equal when they use equally many bytes and all their bytes
agree. -/
instance : BEq (InlineText capacity) where
  beq a b := a.length == b.length && a.bytes == b.bytes

end InlineText

end EventLog
