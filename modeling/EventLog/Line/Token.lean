import EventLog.Text.Basic

/-!
# Tokens of a line

A line is split at runs of spaces that stand outside double quotes.  Inside quotes a
backslash takes its special meaning from the character after it.  Each token keeps
the spaces that follow it, so that the line can be put together again.

Main results:

- `Line.splitToken_append`: splitting off a token loses nothing.
- `Line.join_pieces`: the pieces of a line put together are the line.
-/

namespace EventLog

namespace Line

/-! ## Scanning -/

/-- Where the scan of a line stands. -/
inductive Mode where
  | plain
  | quoted
  /-- Inside quotes, behind a backslash. -/
  | escaped
  deriving DecidableEq, Repr

/-- Where the scan stands after a character. -/
def Mode.next : Mode → Char → Mode
  | plain, c => if c = '"' then quoted else plain
  | quoted, c => if c = '\\' then escaped else if c = '"' then plain else quoted
  | escaped, _ => quoted

/-- Splits a text before its first space outside quotes. -/
def splitToken : Mode → Text → Text × Text
  | _, [] => ([], [])
  | mode, c :: s =>
    if mode = .plain ∧ c = ' ' then ([], c :: s)
    else (c :: (splitToken (mode.next c) s).1, (splitToken (mode.next c) s).2)

/-- Splitting off a token loses nothing. -/
theorem splitToken_append (mode : Mode) (s : Text) :
    (splitToken mode s).1 ++ (splitToken mode s).2 = s := by
  induction s generalizing mode with
  | nil => rfl
  | cons c s ih =>
    unfold splitToken
    split
    · rfl
    · simp [ih]

/-- A token with nothing in it stands before a space or at the end. -/
theorem splitToken_fst_eq_nil {c : Char} {s : Text} (h : (splitToken .plain (c :: s)).1 = []) :
    c = ' ' := by
  unfold splitToken at h
  split at h
  · rename_i hc
    exact hc.2
  · simp at h

/-! ## Pieces -/

/-- A token and the spaces behind it. -/
structure Piece where
  token : Text
  gap : Text
  deriving DecidableEq, Repr

/-- The text of a piece. -/
def Piece.text (p : Piece) : Text :=
  p.token ++ p.gap

/-- The character is the space. -/
def isSpace (c : Char) : Bool := c = ' '

/-- The first piece of a text and the rest. -/
def splitPiece (s : Text) : Piece × Text :=
  let (token, tail) := splitToken .plain s
  (⟨token, tail.takeWhile isSpace⟩, tail.dropWhile isSpace)

/-- Splitting off a piece loses nothing. -/
theorem splitPiece_append (s : Text) : (splitPiece s).1.text ++ (splitPiece s).2 = s := by
  have h := splitToken_append .plain s
  simp only [splitPiece, Piece.text]
  rw [List.append_assoc, List.takeWhile_append_dropWhile, h]

/-- The first piece of a text that is not empty is not empty. -/
theorem splitPiece_text_ne_nil (c : Char) (s : Text) : (splitPiece (c :: s)).1.text ≠ [] := by
  intro h
  obtain ⟨htoken, hgap⟩ := List.append_eq_nil_iff.1 h
  have hc : c = ' ' := splitToken_fst_eq_nil htoken
  have happ := splitToken_append .plain (c :: s)
  simp only [splitPiece] at htoken hgap
  rw [htoken, List.nil_append] at happ
  rw [happ, List.takeWhile_cons] at hgap
  simp [isSpace, hc] at hgap

/-- What is left behind a piece is shorter. -/
theorem length_splitPiece_lt (c : Char) (s : Text) :
    (splitPiece (c :: s)).2.length < (c :: s).length := by
  have happ := congrArg List.length (splitPiece_append (c :: s))
  have hpos := List.length_pos_iff.2 (splitPiece_text_ne_nil c s)
  rw [List.length_append] at happ
  omega

/-- The pieces of a line. -/
def pieces : Text → List Piece
  | [] => []
  | c :: s => (splitPiece (c :: s)).1 :: pieces (splitPiece (c :: s)).2
termination_by s => s.length
decreasing_by exact length_splitPiece_lt c s

/-- Pieces put together. -/
def join (ps : List Piece) : Text :=
  ps.flatMap Piece.text

/-- The pieces of a line put together are the line. -/
theorem join_pieces (s : Text) : join (pieces s) = s := by
  fun_induction pieces s with
  | case1 => rfl
  | case2 c s ih =>
    have happ := splitPiece_append (c :: s)
    simp only [join, List.flatMap_cons] at ih ⊢
    rw [ih, happ]

/-- The tokens of a line that are not empty. -/
def tokens (s : Text) : List Text :=
  (pieces s).map Piece.token |>.filter (· ≠ [])

end Line

end EventLog
