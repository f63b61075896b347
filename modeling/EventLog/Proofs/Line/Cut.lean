import Mathlib.Data.List.Chain
import Mathlib.Data.List.TakeWhile
import EventLog.Proofs.Line.Scan

/-!
# Cutting a line

The pieces of a line are the only way to cut it into tokens and gaps: every token is passed by the
scan, every gap is made of spaces outside quotes, and only the first token and the last gap may be
empty.  So a list of such pieces is found again when it is put together.

The scan of a token starts outside quotes, wherever the token stands.  This is where a scan of the
whole line stands there too, so that the tokens are also the runs between the spaces that one scan
from the start of the line finds outside quotes.

Main results:

- `Line.isCut_pieces` and `Line.pieces_join`: the pieces of a line are its cut, and there is no
  other.
- `Line.tokens_eq_runs`: the tokens of a line are the runs of a single scan.
-/

namespace EventLog

namespace Line

/-! ## Cuts -/

/-- The pieces stand one behind the other in a line. -/
structure IsCut (ps : List Piece) : Prop where
  whole : ∀ p ∈ ps, p.IsWhole
  /-- Between two tokens stands a space, and only the first token may be empty. -/
  chain : ps.IsChain fun p q => p.gap ≠ [] ∧ q.token ≠ []

theorem isCut_cons_iff {p : Piece} {ps : List Piece} :
    IsCut (p :: ps) ↔ p.IsWhole ∧ (∀ q ∈ ps.head?, p.gap ≠ [] ∧ q.token ≠ []) ∧ IsCut ps := by
  constructor
  · rintro ⟨hwhole, hchain⟩
    rw [List.isChain_cons] at hchain
    exact ⟨hwhole p List.mem_cons_self, hchain.1,
      fun q hq => hwhole q (List.mem_cons_of_mem p hq), hchain.2⟩
  · rintro ⟨hp, hhead, hps⟩
    refine ⟨?_, hps.chain.cons hhead⟩
    intro q hq
    rcases List.mem_cons.1 hq with rfl | hq
    · exact hp
    · exact hps.whole q hq

theorem join_cons (p : Piece) (ps : List Piece) : join (p :: ps) = p.text ++ join ps := rfl

/-- A token that the scan passes does not start with a space. -/
theorem head?_ne_of_passes {t : Text} (h : Mode.plain.Passes t) : t.head? ≠ some ' ' := by
  cases t with
  | nil => simp
  | cons c t =>
      intro hhead
      exact h.1 ⟨rfl, Option.some.inj hhead⟩

/-- Behind the gap of a piece the next token starts. -/
theorem head?_join {ps : List Piece} (h : IsCut ps) (hhead : ∀ q ∈ ps.head?, q.token ≠ []) :
    (join ps).head? ≠ some ' ' := by
  cases ps with
  | nil => simp [join]
  | cons q ps =>
      have hq := hhead q rfl
      rw [join_cons, Piece.text, List.append_assoc, List.head?_append_of_ne_nil _ hq]
      exact head?_ne_of_passes (h.whole q List.mem_cons_self).passes

/-- Pieces that are a cut are found again when they are put together. -/
theorem pieces_join {ps : List Piece} (h : IsCut ps) : pieces (join ps) = ps := by
  induction ps with
  | nil => simp [join, pieces]
  | cons p ps ih =>
      rcases isCut_cons_iff.1 h with ⟨hp, hhead, hps⟩
      have hgap : join ps ≠ [] → p.gap ≠ [] := by
        intro hne
        cases ps with
        | nil => exact absurd rfl hne
        | cons q ps => exact (hhead q rfl).1
      rw [join_cons, pieces_append hp hgap (head?_join hps fun q hq => (hhead q hq).2), ih hps]

/-! ## The pieces of a line -/

/-- The scan passes the token that is split off. -/
theorem passes_splitToken (mode : Mode) (s : Text) : mode.Passes (splitToken mode s).1 := by
  induction s generalizing mode with
  | nil => exact trivial
  | cons c s ih =>
      unfold splitToken
      split
      next => exact trivial
      next hc => exact ⟨hc, ih (mode.next c)⟩

/-- Behind the token that is split off the text ends, or a space outside quotes stands. -/
theorem splitToken_snd_cases (mode : Mode) (s : Text) :
    (splitToken mode s).2 = [] ∨
      mode.after (splitToken mode s).1 = .plain ∧ (splitToken mode s).2.head? = some ' ' := by
  induction s generalizing mode with
  | nil => exact Or.inl rfl
  | cons c s ih =>
      unfold splitToken
      split
      next hc => exact Or.inr ⟨hc.1, congrArg some hc.2⟩
      next => exact ih (mode.next c)

/-- The first piece of a text is whole. -/
theorem isWhole_splitPiece {s : Text} (h : s ≠ []) : (splitPiece s).1.IsWhole where
  passes := passes_splitToken .plain s
  plain_after := by
    intro hgap
    rcases splitToken_snd_cases .plain s with hnil | ⟨hplain, -⟩
    · simp [splitPiece, hnil] at hgap
    · exact hplain
  gap_spaces := by
    intro c hc
    simpa [isSpace] using List.mem_takeWhile_imp hc
  text_ne_nil := by
    cases s with
    | nil => exact absurd rfl h
    | cons c s => exact splitPiece_text_ne_nil c s

/-- Behind the first piece no space stands, and if anything does, the piece has a gap. -/
theorem splitPiece_snd (s : Text) :
    (splitPiece s).2.head? ≠ some ' ' ∧ ((splitPiece s).2 ≠ [] → (splitPiece s).1.gap ≠ []) := by
  constructor
  · intro hhead
    have hspace := List.head?_dropWhile_not isSpace (splitToken .plain s).2
    rw [show (splitToken .plain s).2.dropWhile isSpace = (splitPiece s).2 from rfl, hhead]
      at hspace
    simp [isSpace] at hspace
  · intro hne
    rcases splitToken_snd_cases .plain s with hnil | ⟨-, hhead⟩
    · simp [splitPiece, hnil] at hne
    · cases htail : (splitToken .plain s).2 with
      | nil => simp [htail] at hhead
      | cons c rest =>
          have hc : c = ' ' := by simpa [htail] using hhead
          simp [splitPiece, htail, isSpace, hc]

/-- The pieces of a line are a cut. -/
theorem isCut_pieces (s : Text) : IsCut (pieces s) := by
  fun_induction pieces s with
  | case1 => exact ⟨by simp, List.isChain_nil⟩
  | case2 c s ih =>
      rcases splitPiece_snd (c :: s) with ⟨hhead, hgap⟩
      refine isCut_cons_iff.2 ⟨isWhole_splitPiece (List.cons_ne_nil c s), ?_, ih⟩
      intro q hq
      cases hrest : (splitPiece (c :: s)).2 with
      | nil => simp [hrest, pieces] at hq
      | cons d rest =>
          rw [hrest, pieces, List.head?_cons, Option.mem_some] at hq
          subst hq
          refine ⟨hgap (by simp [hrest]), ?_⟩
          intro htoken
          have hd : d = ' ' := splitToken_fst_eq_nil htoken
          simp [hrest, hd] at hhead

/-! ## One scan of the whole line -/

/-- The characters of a text, each with whether it is a space outside quotes. -/
def marks : Mode → Text → List (Char × Bool)
  | _, [] => []
  | mode, c :: s => (c, decide (mode = .plain ∧ c = ' ')) :: marks (mode.next c) s

/-- The runs that are not empty between marked characters. -/
def unmarkedRuns (ms : List (Char × Bool)) : List Text :=
  ((ms.splitOnP Prod.snd).map fun run => run.map Prod.fst).filter (· ≠ [])

/-- The runs that are not empty between the spaces outside quotes, found by one scan of the line
from its start. -/
def runs (line : Text) : List Text :=
  unmarkedRuns (marks .plain line)

theorem marks_append (mode : Mode) (s t : Text) :
    marks mode (s ++ t) = marks mode s ++ marks (mode.after s) t := by
  induction s generalizing mode with
  | nil => rfl
  | cons c s ih => rw [List.cons_append, marks, ih]; rfl

/-- Nothing is marked in a text that the scan passes. -/
theorem marks_of_passes {mode : Mode} {s : Text} (h : mode.Passes s) :
    marks mode s = s.map fun c => (c, false) := by
  induction s generalizing mode with
  | nil => rfl
  | cons c s ih => rw [marks, ih h.2, decide_eq_false h.1]; rfl

/-- Outside quotes every space is marked. -/
theorem marks_spaces {gap : Text} (h : ∀ c ∈ gap, c = ' ') (rest : Text) :
    marks .plain (gap ++ rest) = gap.map (fun c => (c, true)) ++ marks .plain rest := by
  induction gap with
  | nil => rfl
  | cons c gap ih =>
      obtain rfl : c = ' ' := h c List.mem_cons_self
      have hplain : Mode.plain.next ' ' = .plain := rfl
      rw [List.cons_append, marks, hplain, ih fun d hd => h d (List.mem_cons_of_mem ' ' hd)]
      rfl

/-- Characters without a mark are one run. -/
theorem unmarkedRuns_of_unmarked (t : Text) :
    unmarkedRuns (t.map fun c => (c, false)) = [t].filter (· ≠ []) := by
  have hsplit : (t.map fun c => (c, false)).splitOnP Prod.snd = [t.map fun c => (c, false)] := by
    apply List.splitOnP_eq_singleton
    intro m hm
    rcases List.mem_map.1 hm with ⟨c, -, rfl⟩
    rfl
  rw [unmarkedRuns, hsplit, List.map_singleton, List.map_map]
  exact congrArg (fun run => [run].filter (· ≠ [])) (List.map_id t)

/-- A marked character ends a run. -/
theorem unmarkedRuns_append_cons (ms ns : List (Char × Bool)) (c : Char) :
    unmarkedRuns (ms ++ (c, true) :: ns) = unmarkedRuns ms ++ unmarkedRuns ns := by
  rw [unmarkedRuns, List.splitOnP_append_cons ms ns (p := Prod.snd) rfl, List.map_append,
    List.filter_append]
  rfl

/-- Marked characters in front belong to no run. -/
theorem unmarkedRuns_marked (gap : Text) (ms : List (Char × Bool)) :
    unmarkedRuns (gap.map (fun c => (c, true)) ++ ms) = unmarkedRuns ms := by
  induction gap with
  | nil => rfl
  | cons c gap ih =>
      have hnone : unmarkedRuns [] = [] := by simp [unmarkedRuns]
      have hfirst := unmarkedRuns_append_cons [] (gap.map (fun c => (c, true)) ++ ms) c
      rw [hnone, List.nil_append, List.nil_append, ih] at hfirst
      exact hfirst

/-- The runs of pieces put together are their tokens. -/
theorem runs_join {ps : List Piece} (h : IsCut ps) :
    runs (join ps) = (ps.map Piece.token).filter (· ≠ []) := by
  induction ps with
  | nil => simp [runs, join, marks, unmarkedRuns]
  | cons p ps ih =>
      rcases isCut_cons_iff.1 h with ⟨hp, hhead, hps⟩
      have htail : unmarkedRuns (marks .plain (join ps)) = (ps.map Piece.token).filter (· ≠ []) :=
        ih hps
      have htokens : ((p :: ps).map Piece.token).filter (· ≠ []) =
          [p.token].filter (· ≠ []) ++ (ps.map Piece.token).filter (· ≠ []) := by
        rw [List.map_cons, ← List.singleton_append, List.filter_append]
      rw [runs, join_cons, Piece.text, List.append_assoc, marks_append, marks_of_passes hp.passes,
        htokens]
      cases hgap : p.gap with
      | nil =>
          -- without a gap this is the last piece
          have hlast : ps = [] := by
            cases ps with
            | nil => rfl
            | cons q ps => exact absurd hgap (hhead q rfl).1
          subst hlast
          simpa [join, marks] using unmarkedRuns_of_unmarked p.token
      | cons c gap =>
          have hspaces : ∀ d ∈ gap, d = ' ' := by
            intro d hd
            exact hp.gap_spaces d (by simp [hgap, hd])
          obtain rfl : c = ' ' := hp.gap_spaces c (by simp [hgap])
          have hfirst : marks .plain (' ' :: gap ++ join ps) =
              (' ', true) :: (gap.map (fun c => (c, true)) ++ marks .plain (join ps)) := by
            rw [← marks_spaces hspaces]
            rfl
          rw [hp.plain_after (by simp [hgap]), hfirst, unmarkedRuns_append_cons,
            unmarkedRuns_of_unmarked, unmarkedRuns_marked, htail]

/-- The tokens of a line are the runs of a single scan. -/
theorem tokens_eq_runs (line : Text) : tokens line = runs line := by
  have hruns := runs_join (isCut_pieces line)
  rw [join_pieces] at hruns
  exact hruns.symm

end Line

end EventLog
