import EventLog.Line.Token

/-!
# Scanning whole tokens

The scan of a line passes a text if it meets no space outside quotes in it.  A text that is
passed from outside quotes and leaves the scan outside quotes is a token of every line that
it stands in with a space behind it.

Main results:

- `Line.splitToken_append_of_passes`: the scan goes through a text that it passes.
- `Line.pieces_append`: a piece in front of a line is the first of its pieces.
- `Line.pieces_cons`: so is a token with a space behind it.
-/

namespace EventLog

namespace Line

/-! ## Passing -/

/-- Where the scan stands behind a text. -/
def Mode.after (mode : Mode) (s : Text) : Mode :=
  s.foldl Mode.next mode

/-- The scan meets no space outside quotes in a text. -/
def Mode.Passes : Mode → Text → Prop
  | _, [] => True
  | mode, c :: s => ¬ (mode = plain ∧ c = ' ') ∧ (mode.next c).Passes s

namespace Mode

instance decidablePasses : (mode : Mode) → (s : Text) → Decidable (mode.Passes s)
  | _, [] => isTrue trivial
  | mode, c :: s =>
    have := decidablePasses (mode.next c) s
    inferInstanceAs (Decidable (_ ∧ _))

@[simp] theorem after_nil (mode : Mode) : mode.after [] = mode := rfl

@[simp] theorem after_cons (mode : Mode) (c : Char) (s : Text) :
    mode.after (c :: s) = (mode.next c).after s := rfl

@[simp] theorem after_append (mode : Mode) (s t : Text) :
    mode.after (s ++ t) = (mode.after s).after t :=
  List.foldl_append

/-- The scan passes two texts one after the other. -/
theorem passes_append {mode : Mode} {s t : Text} (hs : mode.Passes s)
    (ht : (mode.after s).Passes t) : mode.Passes (s ++ t) := by
  induction s generalizing mode with
  | nil => exact ht
  | cons c s ih => exact ⟨hs.1, ih hs.2 ht⟩

/-- Without quotes and spaces the scan stays outside quotes. -/
theorem plain_of_bare {s : Text} (h : ∀ c ∈ s, c ≠ '"' ∧ c ≠ ' ') :
    plain.Passes s ∧ plain.after s = plain := by
  induction s with
  | nil => exact ⟨trivial, rfl⟩
  | cons c s ih =>
      rcases h c List.mem_cons_self with ⟨hquote, hspace⟩
      have hnext : plain.next c = plain := by simp [next, hquote]
      have hrest := ih fun d hd => h d (List.mem_cons_of_mem c hd)
      rw [after_cons, hnext]
      refine ⟨⟨fun hc => hspace hc.2, ?_⟩, hrest.2⟩
      rw [hnext]
      exact hrest.1

end Mode

/-! ## Pieces -/

/-- The scan goes through a text that it passes. -/
theorem splitToken_append_of_passes {mode : Mode} {s : Text} (h : mode.Passes s) (rest : Text) :
    splitToken mode (s ++ rest) =
      (s ++ (splitToken (mode.after s) rest).1, (splitToken (mode.after s) rest).2) := by
  induction s generalizing mode with
  | nil => rfl
  | cons c s ih =>
      rw [List.cons_append, splitToken, if_neg h.1, ih h.2]
      rfl

/-- The piece can stand in a line: the scan goes through its token, and is outside quotes behind it
if a gap follows. -/
structure Piece.IsWhole (p : Piece) : Prop where
  passes : Mode.plain.Passes p.token
  plain_after : p.gap ≠ [] → Mode.plain.after p.token = .plain
  gap_spaces : ∀ c ∈ p.gap, c = ' '
  text_ne_nil : p.text ≠ []

theorem pieces_of_ne_nil {s : Text} (h : s ≠ []) :
    pieces s = (splitPiece s).1 :: pieces (splitPiece s).2 := by
  cases s with
  | nil => exact absurd rfl h
  | cons c s => rw [pieces]

/-- A text without a space in front has no gap there. -/
theorem takeWhile_isSpace {rest : Text} (h : rest.head? ≠ some ' ') :
    rest.takeWhile isSpace = [] ∧ rest.dropWhile isSpace = rest := by
  cases rest with
  | nil => exact ⟨rfl, rfl⟩
  | cons c rest =>
      have hc : c ≠ ' ' := by simpa using h
      simp [isSpace, hc]

/-- A piece in front of a line is split off as a whole. -/
theorem splitPiece_append_of_isWhole {p : Piece} (h : p.IsWhole) {rest : Text}
    (hgap : rest ≠ [] → p.gap ≠ []) (hrest : rest.head? ≠ some ' ') :
    splitPiece (p.text ++ rest) = (p, rest) := by
  have hsplit : splitToken .plain (p.text ++ rest) = (p.token, p.gap ++ rest) := by
    rw [Piece.text, List.append_assoc, splitToken_append_of_passes h.passes]
    cases hspaces : p.gap with
    | nil =>
        have hnil : rest = [] := Decidable.byContradiction fun hne => hgap hne hspaces
        simp [hnil, splitToken]
    | cons c gap =>
        have hc : c = ' ' := h.gap_spaces c (by simp [hspaces])
        rw [h.plain_after (by simp [hspaces])]
        simp [splitToken, hc]
  have hspaces : ∀ c ∈ p.gap, isSpace c = true := by
    intro c hc
    simp [isSpace, h.gap_spaces c hc]
  rcases takeWhile_isSpace hrest with ⟨htake, hdrop⟩
  rw [splitPiece, hsplit]
  simp only [List.takeWhile_append_of_pos hspaces, List.dropWhile_append_of_pos hspaces, htake,
    hdrop, List.append_nil]

/-- A piece in front of a line is the first of its pieces. -/
theorem pieces_append {p : Piece} (h : p.IsWhole) {rest : Text}
    (hgap : rest ≠ [] → p.gap ≠ []) (hrest : rest.head? ≠ some ' ') :
    pieces (p.text ++ rest) = p :: pieces rest := by
  have hne : p.text ++ rest ≠ [] := by
    intro hnil
    exact h.text_ne_nil (List.append_eq_nil_iff.1 hnil).1
  rw [pieces_of_ne_nil hne, splitPiece_append_of_isWhole h hgap hrest]

/-- The text is a token wherever a space stands behind it. -/
structure IsToken (s : Text) : Prop where
  passes : Mode.plain.Passes s
  plain_after : Mode.plain.after s = .plain
  ne_nil : s ≠ []

/-- The piece of a token with one space behind it. -/
def spaced (token : Text) : Piece := ⟨token, [' ']⟩

/-- A token in front of a line is the first of its pieces. -/
theorem pieces_cons {s rest : Text} (h : IsToken s) (hrest : rest.head? ≠ some ' ') :
    pieces (s ++ ' ' :: rest) = spaced s :: pieces rest := by
  have hwhole : (spaced s).IsWhole := {
    passes := h.passes
    plain_after := fun _ => h.plain_after
    gap_spaces := by simp [spaced]
    text_ne_nil := by simp [spaced, Piece.text] }
  have hpiece := pieces_append hwhole (by simp [spaced]) hrest
  simpa [spaced, Piece.text] using hpiece

end Line

end EventLog
