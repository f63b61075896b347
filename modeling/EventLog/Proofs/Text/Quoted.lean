import EventLog.Proofs.Text.Decimal
import EventLog.Text.Quoted

/-!
# Reading quoted texts back

Main results:

- `Quoted.decode_flatMap_escape`: what stands between the quotes reads back.
- `Quoted.decode_eq_iff`: what is read behind an opening quote.
- `Quoted.encode_cases`: a text is written as it is only if it is no number and nothing in
  it ends or splits a token.
-/

namespace EventLog

namespace Quoted

/-- A character that is neither a quote nor a backslash stands for itself. -/
theorem decode_cons_of_ne {c : Char} (hquote : c ≠ '"') (hbackslash : c ≠ '\\') (s : Text) :
    decode (c :: s) = c :: decode s := by
  rw [decode]
  · exact hquote
  · intro _ _ h _
    exact hbackslash h
  · intro h _
    exact hbackslash h

/-- One escaped character reads back, whatever follows. -/
theorem decode_escape_append (c : Char) (rest : Text) :
    decode (escape c ++ rest) = c :: decode rest := by
  by_cases hquote : c = '"'
  · simp [escape, hquote, decode, unescape]
  by_cases hbackslash : c = '\\'
  · simp [escape, hbackslash, decode, unescape]
  by_cases hnewline : c = '\n'
  · simp [escape, hnewline, decode, unescape]
  by_cases hreturn : c = '\r'
  · simp [escape, hreturn, decode, unescape]
  by_cases htab : c = '\t'
  · simp [escape, htab, decode, unescape]
  have hplain : escape c = [c] := by
    simp [escape, hquote, hbackslash, hnewline, hreturn, htab]
  rw [hplain]
  exact decode_cons_of_ne hquote hbackslash rest

/-- What stands between the quotes reads back. -/
theorem decode_flatMap_escape (s rest : Text) :
    decode (s.flatMap escape ++ '"' :: rest) = s := by
  induction s with
  | nil => simp [decode]
  | cons c s ih => rw [List.flatMap_cons, List.append_assoc, decode_escape_append, ih]

/-! ## What is read -/

/-- What stands for one character between quotes. -/
inductive Glyph where
  /-- A character that is neither a quote nor a backslash. -/
  | plain (c : Char) (hquote : c ≠ '"') (hbackslash : c ≠ '\\')
  /-- A character behind a backslash. -/
  | escaped (c : Char)

namespace Glyph

def text : Glyph → Text
  | plain c _ _ => [c]
  | escaped c => ['\\', c]

/-- The character that is meant. -/
def meaning : Glyph → Char
  | plain c _ _ => c
  | escaped c => unescape c

end Glyph

/-- The text behind an opening quote means `t`: it has a glyph for each character of `t`, and then
the first quote without a backslash in front of it.  If there is no such quote, the glyphs go on
to the end, or to a backslash at the end that nothing follows. -/
def Means (s t : Text) : Prop :=
  ∃ glyphs : List Glyph, ∃ ending : Text, s = glyphs.flatMap Glyph.text ++ ending ∧
    t = glyphs.map Glyph.meaning ∧ (ending.head? = some '"' ∨ ending = [] ∨ ending = ['\\'])

theorem decode_glyph_append (g : Glyph) (rest : Text) :
    decode (g.text ++ rest) = g.meaning :: decode rest := by
  cases g with
  | plain c hquote hbackslash => exact decode_cons_of_ne hquote hbackslash rest
  | escaped c => simp [Glyph.text, Glyph.meaning, decode]

theorem decode_ending {ending : Text}
    (h : ending.head? = some '"' ∨ ending = [] ∨ ending = ['\\']) : decode ending = [] := by
  rcases h with hquote | rfl | rfl
  · cases ending with
    | nil => cases hquote
    | cons c ending =>
        obtain rfl : c = '"' := Option.some.inj hquote
        rfl
  · rfl
  · rfl

/-- A glyph in front adds its character. -/
theorem Means.cons {s t : Text} (h : Means s t) (g : Glyph) :
    Means (g.text ++ s) (g.meaning :: t) := by
  rcases h with ⟨glyphs, ending, rfl, rfl, hending⟩
  exact ⟨g :: glyphs, ending, by simp, rfl, hending⟩

theorem means_decode (s : Text) : Means s (decode s) := by
  fun_induction decode s with
  | case1 => exact ⟨[], [], rfl, rfl, Or.inr (Or.inl rfl)⟩
  | case2 rest => exact ⟨[], '"' :: rest, rfl, rfl, Or.inl rfl⟩
  | case3 c s ih => exact ih.cons (.escaped c)
  | case4 => exact ⟨[], ['\\'], rfl, rfl, Or.inr (Or.inr rfl)⟩
  | case5 c s hquote hescaped hlast ih =>
      have hbackslash : c ≠ '\\' := by
        intro hc
        cases s with
        | nil => exact hlast hc rfl
        | cons d s => exact hescaped d s hc rfl
      exact ih.cons (.plain c hquote hbackslash)

/-- What is read behind an opening quote is what stands there. -/
theorem decode_eq_iff {s t : Text} : decode s = t ↔ Means s t := by
  constructor
  · rintro rfl
    exact means_decode s
  · rintro ⟨glyphs, ending, rfl, rfl, hending⟩
    induction glyphs with
    | nil => exact decode_ending hending
    | cons g glyphs ih =>
        rw [List.flatMap_cons, List.append_assoc, decode_glyph_append, ih]
        rfl

/-! ## Written texts -/

/-- A text needs no quotes if it is no number, and no blank, quote or backslash stands in it. -/
theorem needsQuotes_eq_false_iff {s : Text} : needsQuotes s = false ↔
    Decimal.read? Decimal.max64 s = none ∧
      ∀ c ∈ s, Text.isBlank c = false ∧ c ≠ '"' ∧ c ≠ '\\' := by
  simp [needsQuotes, and_assoc]

/-- A text is written between quotes, or as it is; then it is no number, and no blank, quote or
backslash stands in it. -/
theorem encode_cases (s : Text) :
    encode s = '"' :: (s.flatMap escape ++ ['"']) ∨
      encode s = s ∧ Decimal.read? Decimal.max64 s = none ∧
        ∀ c ∈ s, Text.isBlank c = false ∧ c ≠ '"' ∧ c ≠ '\\' := by
  unfold encode
  split
  next => exact Or.inl rfl
  next h => exact Or.inr ⟨rfl, needsQuotes_eq_false_iff.1 (by simpa using h)⟩

end Quoted

end EventLog
