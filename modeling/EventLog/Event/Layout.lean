import EventLog.Event.Basic

/-!
# Layout in memory

Fields lie in order, each at the next offset that its alignment allows, and a whole
is padded to a multiple of its own alignment.  Headers fill one cache line, payloads
start on one, and a record slot holds any payload.

Main results:

- `Layout.header_size`: a padded header takes exactly one cache line.
- `Layout.payload_fits`: every payload fits a record slot.
-/

namespace EventLog

/-- How much room a value takes and on which multiples it starts. -/
structure Layout where
  size : Nat
  align : Nat
  deriving DecidableEq, Repr

namespace Layout

/-- The next multiple of `align` from `n` on. -/
def roundUp (n align : Nat) : Nat :=
  (n + align - 1) / align * align

/-- An unsigned number of `n` bytes. -/
def word (n : Nat) : Layout := ⟨n, n⟩

/-- `n` single bytes. -/
def bytes (n : Nat) : Layout := ⟨n, 1⟩

/-- Where the last of the fields ends when they are laid out in order. -/
def extent (fields : List Layout) : Nat :=
  fields.foldl (fun offset f => roundUp offset f.align + f.size) 0

/-- Fields laid out in order, aligned at least to `align`. -/
def ofFields (align : Nat) (fields : List Layout) : Layout :=
  let align := fields.foldl (fun a f => max a f.align) align
  ⟨roundUp (extent fields) align, align⟩

/-- The bytes of a cache line. -/
def cacheLine : Nat := 64

/-- The fields of a header: severity, timestamp, thread, request, class, method,
version. -/
def headerFields : List Layout :=
  [word 1, word 8, word 4, word 4, word 2, word 2, word 2]

/-- The bytes of a header's fields. -/
def headerExtent : Nat := extent headerFields

/-- The bytes after a header's fields up to the end of the cache line. -/
def headerPad : Nat := cacheLine - headerExtent

/-- A header with its pad. -/
def header : Layout := ofFields 1 (headerFields ++ [bytes headerPad])

/-- An inline text: the length in one byte, then its bytes. -/
def inlineText (capacity : Nat) : Layout :=
  ofFields 1 [word 1, bytes capacity]

/-- The payload of an event of a kind. -/
def payload : Tag → Layout
  | .generic => ofFields cacheLine [header]
  | .request => ofFields cacheLine [header, word 8, inlineText requestPathCapacity]

/-- The payload storage of a record slot. -/
def slot : Layout := ⟨256, cacheLine⟩

/-- A padded header takes exactly one cache line. -/
theorem header_size : header.size = cacheLine := by decide

/-- Every payload fits a record slot. -/
theorem payload_fits (t : Tag) : (payload t).size ≤ slot.size ∧ (payload t).align ≤ slot.align := by
  cases t <;> decide

end Layout

end EventLog
