import EventLog.Proofs.Line.Cut

/-!
# Cutting a line in one pass

The pieces of a line are asked for one after the other, and each is found by a scan of its own,
which starts outside quotes.  A pass over the whole line follows the quotes from the start of the
line instead and cuts at every run of spaces outside of them.  Both cut at the same places, for
behind a gap the pass is outside quotes as well.

Main results:

- `Line.answers_eq`: the pieces come in order, and then there are none.
- `Line.pieces_foldl_join`: a pass finds the pieces of a cut.
- `Line.pieces_eq_onePass`: the pieces of a line, and how they lie in it.
-/

namespace EventLog

namespace Line

/-! ## One piece after the other -/

/-- The next piece of what is left of a line, and what is then left. -/
def next? : Text → Option (Piece × Text)
  | [] => none
  | c :: s => some (splitPiece (c :: s))

/-- The answers to `n` requests for the next piece, one after the other. -/
def answers : Nat → Text → List (Option Piece)
  | 0, _ => []
  | n + 1, rest =>
    match next? rest with
    | none => none :: answers n rest
    | some (p, rest) => some p :: answers n rest

/-- The pieces of a line come in order, and then there are none. -/
theorem answers_eq (n : Nat) (line : Text) :
    answers n line = (List.range n).map fun i => (pieces line)[i]? := by
  induction n generalizing line with
  | zero => rfl
  | succ n ih =>
      rw [List.range_succ_eq_map, List.map_cons, List.map_map]
      cases line with
      | nil =>
          have hnone : ∀ i : Nat, (pieces [])[i]? = none := by simp [pieces]
          simp only [answers, next?, ih, hnone, Function.comp_def]
      | cons c s =>
          simp only [answers, next?, ih, pieces, List.getElem?_cons_zero, Function.comp_def,
            Nat.succ_eq_add_one, List.getElem?_cons_succ]

/-- There are no more pieces than characters. -/
theorem length_pieces_le (line : Text) : (pieces line).length ≤ line.length := by
  fun_induction pieces line with
  | case1 => exact Nat.le_refl 0
  | case2 c s ih =>
      have hshorter := length_splitPiece_lt c s
      rw [List.length_cons]
      omega

/-! ## Where the parts of a cut are empty -/

/-- Only the last gap of a cut is empty. -/
theorem IsCut.gap_ne_nil {ps : List Piece} (h : IsCut ps) {p : Piece} (hp : p ∈ ps.dropLast) :
    p.gap ≠ [] := by
  induction ps with
  | nil => simp at hp
  | cons q ps ih =>
      rcases isCut_cons_iff.1 h with ⟨-, hhead, hps⟩
      cases ps with
      | nil => simp at hp
      | cons r ps =>
          rw [List.dropLast_cons_cons, List.mem_cons] at hp
          rcases hp with rfl | hp
          · exact (hhead r rfl).1
          · exact ih hps hp

/-- Only the first token of a cut is empty. -/
theorem IsCut.token_ne_nil {ps : List Piece} (h : IsCut ps) {p : Piece} (hp : p ∈ ps.tail) :
    p.token ≠ [] := by
  induction ps with
  | nil => simp at hp
  | cons q ps ih =>
      rcases isCut_cons_iff.1 h with ⟨-, hhead, hps⟩
      cases ps with
      | nil => simp at hp
      | cons r ps =>
          rw [List.tail_cons, List.mem_cons] at hp
          rcases hp with rfl | hp
          · exact (hhead p rfl).2
          · exact ih hps hp

/-! ## A pass over the whole line -/

/-- How far a pass over a line has come. -/
structure Pass where
  /-- Where the scan stands, from the start of the line on. -/
  mode : Mode := .plain
  /-- The pieces behind which a further token stands. -/
  closed : List Piece := []
  /-- The token that was read last. -/
  token : Text := []
  /-- The spaces that were read behind it. -/
  gap : Text := []

namespace Pass

/-- Reads a character.  A space outside quotes belongs to the gap; any other character belongs to
the token, and to the next one if there is a gap. -/
def read (s : Pass) (c : Char) : Pass :=
  if s.mode = .plain ∧ c = ' ' then { s with gap := s.gap ++ [c] }
  else if s.gap = [] then { s with mode := s.mode.next c, token := s.token ++ [c] }
  else { mode := s.mode.next c, closed := s.closed ++ [⟨s.token, s.gap⟩], token := [c] }

/-- All pieces that were read. -/
def pieces (s : Pass) : List Piece :=
  if s.token = [] ∧ s.gap = [] then s.closed else s.closed ++ [⟨s.token, s.gap⟩]

/-- A text without a space outside quotes belongs to the token. -/
theorem foldl_read_of_passes {mode : Mode} {t : Text} (h : mode.Passes t) (closed : List Piece)
    (token : Text) :
    t.foldl read ⟨mode, closed, token, []⟩ = ⟨mode.after t, closed, token ++ t, []⟩ := by
  induction t generalizing mode token with
  | nil => simp
  | cons c t ih =>
      have hread : read ⟨mode, closed, token, []⟩ c = ⟨mode.next c, closed, token ++ [c], []⟩ := by
        rw [read, if_neg h.1, if_pos rfl]
      rw [List.foldl_cons, hread, ih h.2]
      simp

/-- Spaces outside quotes belong to the gap. -/
theorem foldl_read_of_spaces {gap : Text} (h : ∀ c ∈ gap, c = ' ') (closed : List Piece)
    (token front : Text) :
    gap.foldl read ⟨.plain, closed, token, front⟩ = ⟨.plain, closed, token, front ++ gap⟩ := by
  induction gap generalizing front with
  | nil => simp
  | cons c gap ih =>
      have hread : read ⟨.plain, closed, token, front⟩ c =
          ⟨.plain, closed, token, front ++ [c]⟩ := by
        rw [read, if_pos ⟨rfl, h c List.mem_cons_self⟩]
      rw [List.foldl_cons, hread, ih fun d hd => h d (List.mem_cons_of_mem c hd)]
      simp

/-- A piece that is whole is read as its token and its gap. -/
theorem foldl_read_of_isWhole {p : Piece} (h : p.IsWhole) (closed : List Piece) :
    p.text.foldl read { closed } = ⟨Mode.plain.after p.token, closed, p.token, p.gap⟩ := by
  rw [Piece.text, List.foldl_append, foldl_read_of_passes h.passes, List.nil_append]
  by_cases hgap : p.gap = []
  · rw [hgap]
    rfl
  · rw [h.plain_after hgap, foldl_read_of_spaces h.gap_spaces, List.nil_append]

/-- Behind a gap the next token starts as if the pieces up to there were closed. -/
theorem foldl_read_of_gap {s : Pass} {t : Text} (hplain : s.mode = .plain) (hgap : s.gap ≠ [])
    (hne : t ≠ []) (hhead : t.head? ≠ some ' ') :
    t.foldl read s = t.foldl read { closed := s.pieces } := by
  cases t with
  | nil => exact absurd rfl hne
  | cons c t =>
      have hc : c ≠ ' ' := by simpa using hhead
      have hpieces : s.pieces = s.closed ++ [⟨s.token, s.gap⟩] := if_neg fun h => hgap h.2
      have hread : s.read c = read { closed := s.pieces } c := by
        simp [read, hplain, hc, hgap, hpieces]
      rw [List.foldl_cons, List.foldl_cons, hread]

end Pass

/-- The pieces that a pass over a line finds. -/
def onePass (line : Text) : List Piece :=
  (line.foldl Pass.read {}).pieces

/-- A pass finds the pieces of a cut. -/
theorem pieces_foldl_join {ps : List Piece} (h : IsCut ps) (closed : List Piece) :
    ((join ps).foldl Pass.read { closed }).pieces = closed ++ ps := by
  induction ps generalizing closed with
  | nil => simp [join, Pass.pieces]
  | cons p ps ih =>
      rcases isCut_cons_iff.1 h with ⟨hp, hhead, hps⟩
      have hlast : Pass.pieces ⟨Mode.plain.after p.token, closed, p.token, p.gap⟩ =
          closed ++ [p] := by
        refine if_neg ?_
        rintro ⟨htoken, hgap⟩
        simp only at htoken hgap
        exact hp.text_ne_nil (by rw [Piece.text, htoken, hgap]; rfl)
      rw [join_cons, List.foldl_append, Pass.foldl_read_of_isWhole hp]
      cases ps with
      | nil => exact hlast
      | cons q ps =>
          rcases hhead q rfl with ⟨hgap, htoken⟩
          have hne : join (q :: ps) ≠ [] := by
            simp [join_cons, Piece.text, htoken]
          have hnext := head?_join hps fun r hr => by
            obtain rfl : q = r := Option.some.inj hr
            exact htoken
          rw [Pass.foldl_read_of_gap (hp.plain_after hgap) hgap hne hnext, hlast, ih hps]
          simp

/-- A line is cut into its pieces: they come one after the other until the line is used up, and
put together they are the line.  Gaps consist of spaces, only the last gap and the first token may
be empty, and the cuts are those of one pass over the whole line, although every token is looked
for from outside quotes. -/
theorem pieces_eq_onePass (line : Text) :
    (∀ n, answers n line = (List.range n).map fun i => (pieces line)[i]?) ∧
      (pieces line).length ≤ line.length ∧
      join (pieces line) = line ∧
      (∀ p ∈ pieces line, ∀ c ∈ p.gap, c = ' ') ∧
      (∀ p ∈ (pieces line).dropLast, p.gap ≠ []) ∧
      (∀ p ∈ (pieces line).tail, p.token ≠ []) ∧
      pieces line = onePass line := by
  have hcut := isCut_pieces line
  have hpass := pieces_foldl_join hcut []
  rw [join_pieces, List.nil_append] at hpass
  refine ⟨fun n => answers_eq n line, length_pieces_le line, join_pieces line, ?_, ?_, ?_,
    hpass.symm⟩
  · intro p hp
    exact (hcut.whole p hp).gap_spaces
  · intro p hp
    exact hcut.gap_ne_nil hp
  · intro p hp
    exact hcut.token_ne_nil hp

/-- A quote that is not closed takes the spaces behind it into its token; an escaped one does not
end it. -/
example : onePass "  a=\"x \\\" y\"  b=\"z ".toList =
    [⟨[], "  ".toList⟩, ⟨"a=\"x \\\" y\"".toList, "  ".toList⟩, ⟨"b=\"z ".toList, []⟩] := by
  decide

end Line

end EventLog
