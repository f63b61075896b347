import EventLog.Proofs.Event.Equality
import EventLog.Proofs.Text.Boundaries

/-!
# Stored texts

A text is stored by its bytes: the number of bytes in use is looked for from the capacity downwards
and kept in one byte, and the bytes up to there are copied.  What is stored is the longest prefix
that fits, and its bytes spell it.

Main results:

- `InlineText.store?_utf8`: the bytes that are stored are those of the cut text.
- `InlineText.fromUTF8?_bytes`: the bytes in use spell a text.
- `InlineText.isLongest_text_ofText`: what is stored at a capacity of up to 255 bytes.
-/

namespace EventLog

namespace InlineText

variable {capacity : Nat}

/-! ## Storing bytes -/

/-- The number of bytes in use, in one byte, and all bytes. -/
def inMemory (a : InlineText capacity) : UInt8 × List UInt8 :=
  (UInt8.ofNat a.length, a.bytes)

/-- Stores the bytes up to the last boundary within the capacity, and zeros behind them; `none` if
there is no boundary. -/
def store? (capacity : Nat) (bytes : List UInt8) : Option (UInt8 × List UInt8) :=
  (Text.lastBoundary? bytes (min bytes.length capacity)).map fun n =>
    (UInt8.ofNat n, bytes.take n ++ List.replicate (capacity - n) 0)

/-- The bytes of a prefix are the first bytes. -/
theorem take_utf8 {s t : Text} (h : t <+: s) :
    (Text.utf8 s).take (Text.byteLength t) = Text.utf8 t := by
  rcases h with ⟨rest, rfl⟩
  rw [Text.utf8, List.flatMap_append, ← Text.length_utf8]
  exact List.take_left

/-- The bytes that are stored are those of the cut text. -/
theorem store?_utf8 (capacity : Nat) (s : Text) :
    store? capacity (Text.utf8 s) = some (inMemory (ofText s : InlineText capacity)) := by
  have htake := take_utf8 (Text.takeBytes_isPrefix capacity s)
  rw [store?, Text.lastBoundary?_utf8, Option.map_some, htake]
  rfl

/-! ## Reading them back -/

/-- The number of bytes in use fits into a byte. -/
theorem toNat_length (h : capacity ≤ 255) (a : InlineText capacity) :
    (UInt8.ofNat a.length).toNat = Text.byteLength a.text := by
  have hfits := a.fits
  exact UInt8.toNat_ofNat_of_lt' (by change Text.byteLength a.text < 256; omega)

/-- The bytes in use are those of the text. -/
theorem take_bytes (a : InlineText capacity) : a.bytes.take a.length = Text.utf8 a.text := by
  rw [bytes, length, ← Text.length_utf8]
  exact List.take_left

/-- The bytes in use spell the text. -/
theorem fromUTF8?_bytes (a : InlineText capacity) :
    String.fromUTF8? ⟨(a.bytes.take a.length).toArray⟩ = some (String.ofList a.text) := by
  have hbytes : (⟨(Text.utf8 a.text).toArray⟩ : ByteArray) =
      (String.ofList a.text).toByteArray := by
    rw [String.toByteArray_ofList]
    exact ByteArray.ext List.data_toByteArray.symm
  rw [take_bytes, hbytes, String.fromUTF8?, dif_pos (String.ofList a.text).isValidUTF8]
  rfl

theorem read_bytes (a : InlineText capacity) : read a.length a.bytes = a.text := by
  rw [read, fromUTF8?_bytes, Option.map_some, Option.getD_some, String.toList_ofList]

/-! ## Storing again -/

/-- A text that is stored at two capacities is cut at the smaller one. -/
theorem text_ofText_ofText (other : Nat) (s : Text) :
    (ofText (ofText s : InlineText capacity).text : InlineText other).text =
      (ofText s : InlineText (min capacity other)).text :=
  Text.takeBytes_takeBytes other capacity s

/-- A stored text that is stored again is the same. -/
theorem ofText_text (a : InlineText capacity) : ofText a.text = a := by
  ext1
  exact Text.takeBytes_of_fits a.fits

/-! ## What is stored -/

/-- At a capacity of up to 255 bytes the longest prefix of a text is stored that fits.  The search
for its end ends, its number of bytes fits into a byte, and what is read back is the text itself.
Stored texts compare by what they hold, and storing them again cuts at the smaller capacity. -/
theorem isLongest_text_ofText (hcapacity : capacity ≤ 255) :
    (∀ s, Text.IsLongest capacity s (ofText s : InlineText capacity).text) ∧
      (∀ s, store? capacity (Text.utf8 s) = some (inMemory (ofText s : InlineText capacity))) ∧
      (∀ a : InlineText capacity, (inMemory a).1.toNat = Text.byteLength a.text) ∧
      (∀ a : InlineText capacity,
        String.fromUTF8? ⟨((inMemory a).2.take (inMemory a).1.toNat).toArray⟩ =
            some (String.ofList a.text) ∧
          read (inMemory a).1.toNat (inMemory a).2 = a.text) ∧
      (∀ a b : InlineText capacity, (a == b) = true ↔ a.text = b.text) ∧
      (∀ s other, (ofText (ofText s : InlineText capacity).text : InlineText other).text =
        (ofText s : InlineText (min capacity other)).text) ∧
      (∀ a : InlineText capacity, ofText a.text = a) := by
  have hlength : ∀ a : InlineText capacity, (inMemory a).1.toNat = a.length :=
    toNat_length hcapacity
  refine ⟨Text.isLongest_takeBytes capacity, store?_utf8 capacity, hlength, ?_, ?_,
    fun s other => text_ofText_ofText other s, ofText_text⟩
  · intro a
    rw [hlength a]
    exact ⟨fromUTF8?_bytes a, read_bytes a⟩
  · intro a b
    rw [beq_iff_eq]
    exact ⟨congrArg text, ext⟩

/-- Three bytes hold two letters but not the one of two bytes behind them. -/
theorem isLongest_text_ofText_three :
    3 ≤ 255 ∧ (ofText "abé".toList : InlineText 3).text = "ab".toList ∧
      store? 3 (Text.utf8 "abé".toList) = some (2, [97, 98, 0]) ∧
      Text.IsLongest 3 "abé".toList "ab".toList := by
  have htext : (ofText "abé".toList : InlineText 3).text = "ab".toList := by decide
  have hmemory : inMemory (ofText "abé".toList : InlineText 3) = (2, [97, 98, 0]) := by decide
  rcases @isLongest_text_ofText 3 (by decide) with ⟨hlongest, hstore, -⟩
  refine ⟨by decide, htext, ?_, ?_⟩
  · rw [hstore, hmemory]
  · rw [← htext]
    exact hlongest "abé".toList

end InlineText

end EventLog
