import Mathlib.Data.List.TakeDrop
import EventLog.Delivery.Publisher

/-!
# Short writes

A writer may take few of the bytes that it is offered, may be interrupted, and has no room behind a
limit.  A write that is tried again until all bytes are taken leaves no trace of this: the writer
has the bytes in order, up to its limit, whatever happened in between.  So a terminal whose writer
is full loses the end of its stream and nothing else.

Main results:

- `Writer.step_write`: what one write can do.
- `Writer.writes_writeAll_le`: a write of all bytes comes to an end.
- `Writer.isWritten_writeAll`: a write of all bytes fills the room there is.
- `Terminal.shown_afterAll`: what a terminal shows after any messages, and what the next one leaves.
-/

namespace EventLog

/-- While there is room, every call that is not interrupted takes at least one byte. -/
def Script.Takes (script : Script) : Prop :=
  ∀ call, script.reaction call ≠ .take 0

/-- The bytes that a writer stores of all that it is offered. -/
def Script.kept (script : Script) (bytes : List UInt8) : List UInt8 :=
  match script.limit with
  | none => bytes
  | some limit => bytes.take limit

namespace Writer

variable {w w' w₁ w₂ : Writer} {bytes a b : List UInt8}

/-! ## One write -/

/-- The writer after a call that takes bytes. -/
def accept (w : Writer) (offered : Nat) (bytes : List UInt8) : Writer :=
  { w.count offered with taken := bytes.reverse ++ w.taken }

/-- What a write can do, by its outcome. -/
inductive Step (w : Writer) (bytes : List UInt8) : Outcome → Writer → Prop
  | interrupted : w.delay = 1 → Step w bytes .interrupted (w.count bytes.length)
  | failed (cause : IoFault) : w.isFull = true → Step w bytes (.failed cause) (w.count bytes.length)
  | refused : w.isFull = true → Step w bytes (.wrote 0) (w.count bytes.length)
  | took (most count : Nat) : w.script.reaction (w.writes + 1) = .take most → w.isFull = false →
      count = min (min bytes.length most) (w.room bytes.length) →
      Step w bytes (.wrote count) (w.accept bytes.length (bytes.take count))

theorem step_write (w : Writer) (bytes : List UInt8) :
    Step w bytes (w.write bytes).1 (w.write bytes).2 := by
  unfold write
  split
  next hreaction => exact .interrupted (if_pos hreaction)
  next most hreaction =>
    split
    next hfull =>
      split
      next => exact .failed _ hfull
      next => exact .refused hfull
    next hroom => exact .took most _ hreaction (Bool.eq_false_iff.2 hroom) rfl

theorem step_of_write {outcome : Outcome} (h : w.write bytes = (outcome, w')) :
    Step w bytes outcome w' := by
  have hstep := step_write w bytes
  rw [h] at hstep
  exact hstep

/-- Every write is counted. -/
theorem Step.writes_eq {outcome : Outcome} (h : Step w bytes outcome w') :
    w'.writes = w.writes + 1 := by
  cases h <;> rfl

/-! ## The end of a write of all bytes -/

/-- A write of all bytes takes at most two writes for each byte: one that is interrupted, and one
that is not.  If the next one is not interrupted, one of them is saved. -/
theorem writes_writeAll_cases (w : Writer) (bytes : List UInt8) :
    (w.writeAll bytes).2.writes ≤ w.writes + 2 * bytes.length ∧
      (w.delay = 0 → bytes ≠ [] →
        (w.writeAll bytes).2.writes + 1 ≤ w.writes + 2 * bytes.length) := by
  fun_induction writeAll w bytes with
  | case1 w => exact ⟨Nat.le_refl _, fun _ hne => absurd rfl hne⟩
  | case2 w bytes hne w' hwrite ih =>
      have hcount := (step_of_write hwrite).writes_eq
      rcases write_interrupted hwrite with ⟨hdelay, hnext⟩
      have hrest := ih.2 hnext hne
      exact ⟨by omega, by omega⟩
  | case3 w bytes hne cause w' hwrite =>
      have hcount := (step_of_write hwrite).writes_eq
      have hlength := List.length_pos_iff.2 hne
      dsimp only
      exact ⟨by omega, by omega⟩
  | case4 w bytes hne w' hwrite =>
      have hcount := (step_of_write hwrite).writes_eq
      have hlength := List.length_pos_iff.2 hne
      dsimp only
      exact ⟨by omega, by omega⟩
  | case5 w bytes hne count w' hwrite ih =>
      have hcount := (step_of_write hwrite).writes_eq
      have hlength := List.length_pos_iff.2 hne
      have hrest := ih.1
      rw [List.length_drop] at hrest
      exact ⟨by omega, by omega⟩

/-- A write of all bytes comes to an end. -/
theorem writes_writeAll_le (w : Writer) (bytes : List UInt8) :
    (w.writeAll bytes).2.writes ≤ w.writes + 2 * bytes.length :=
  (writes_writeAll_cases w bytes).1

/-! ## Room -/

/-- The room is what is asked for without a limit, and the same for all with one. -/
theorem room_cases (w : Writer) : (∀ n, w.room n = n) ∨ ∃ left, ∀ n, w.room n = left := by
  unfold room
  cases w.script.limit with
  | none => exact Or.inl fun n => rfl
  | some limit => exact Or.inr ⟨_, fun n => rfl⟩

theorem room_of_isFull (h : w.isFull = true) (n : Nat) : w.room n = 0 := by
  unfold isFull at h
  unfold room
  cases hlimit : w.script.limit with
  | none => simp [hlimit] at h
  | some limit =>
      have hle : limit ≤ w.taken.length := by simpa [hlimit] using h
      exact Nat.sub_eq_zero_of_le hle

theorem room_pos_of_not_isFull (h : w.isFull = false) {n : Nat} (hn : 0 < n) : 0 < w.room n := by
  unfold isFull at h
  unfold room
  cases hlimit : w.script.limit with
  | none => exact hn
  | some limit =>
      have hlt : w.taken.length < limit := by simpa [hlimit] using h
      exact Nat.sub_pos_of_lt hlt

/-- Fewer bytes fit if more fit. -/
theorem le_room {n m : Nat} (h : n ≤ w.room m) : n ≤ w.room n := by
  rcases w.room_cases with hunlimited | ⟨left, hleft⟩
  · exact Nat.le_of_eq (hunlimited n).symm
  · rw [hleft] at h ⊢
    exact h

/-- The bytes went into the room there was, from the first one on. -/
structure Fills (w : Writer) (bytes : List UInt8) (w' : Writer) : Prop where
  reaction_eq : w'.script.reaction = w.script.reaction
  limit_eq : w'.script.limit = w.script.limit
  stored_eq : w'.stored = w.stored ++ bytes.take (w.room bytes.length)

theorem length_stored (w : Writer) : w.stored.length = w.taken.length := by
  rw [stored, List.length_reverse]

/-- The room that is left is the room for more bytes less these. -/
theorem Fills.room_eq (h : Fills w bytes w') (n : Nat) :
    w'.room n = w.room (bytes.length + n) - bytes.length := by
  have hlength := congrArg List.length h.stored_eq
  rw [length_stored, List.length_append, length_stored, List.length_take] at hlength
  unfold room at hlength ⊢
  rw [h.limit_eq]
  cases hlimit : w.script.limit with
  | none => simp
  | some limit =>
      simp only [hlimit] at hlength ⊢
      omega

/-- The bytes in front go into the room for themselves. -/
theorem take_room (w : Writer) (bytes : List UInt8) (n : Nat) :
    bytes.take (w.room (bytes.length + n)) = bytes.take (w.room bytes.length) := by
  rcases w.room_cases with hunlimited | ⟨left, hleft⟩
  · rw [hunlimited, hunlimited, List.take_length, List.take_of_length_le (Nat.le_add_right _ _)]
  · rw [hleft, hleft]

/-- Bytes that go into the room one after the other go into it together. -/
theorem Fills.append (h₁ : Fills w a w₁) (h₂ : Fills w₁ b w₂) : Fills w (a ++ b) w₂ where
  reaction_eq := h₂.reaction_eq.trans h₁.reaction_eq
  limit_eq := h₂.limit_eq.trans h₁.limit_eq
  stored_eq := by
    rw [h₂.stored_eq, h₁.stored_eq, h₁.room_eq, List.append_assoc, List.length_append,
      List.take_append, take_room]

theorem Fills.nil (hscript : w'.script = w.script) (htaken : w'.taken = w.taken) :
    Fills w [] w' where
  reaction_eq := by rw [hscript]
  limit_eq := by rw [hscript]
  stored_eq := by rw [stored, htaken, List.take_nil, List.append_nil, stored]

/-- All bytes go into a writer with room for them. -/
theorem Fills.of_room (hscript : w'.script = w.script)
    (htaken : w'.taken = bytes.reverse ++ w.taken) (hroom : bytes.length ≤ w.room bytes.length) :
    Fills w bytes w' where
  reaction_eq := by rw [hscript]
  limit_eq := by rw [hscript]
  stored_eq := by
    rw [stored, htaken, List.reverse_append, List.reverse_reverse, List.take_of_length_le hroom,
      stored]

/-- Nothing goes into a writer without room. -/
theorem Fills.of_no_room (hscript : w'.script = w.script) (htaken : w'.taken = w.taken)
    (hroom : w.room bytes.length = 0) : Fills w bytes w' where
  reaction_eq := by rw [hscript]
  limit_eq := by rw [hscript]
  stored_eq := by rw [stored, htaken, hroom, List.take_zero, List.append_nil, stored]

/-! ## Writes of all bytes -/

/-- What a write of all bytes leaves: they filled the room, and it was enough for them exactly if
there is no fault. -/
structure IsWritten (w : Writer) (bytes : List UInt8) (r : Except IoFault Unit × Writer) :
    Prop where
  script_eq : r.2.script = w.script
  fills : Fills w bytes r.2
  ok_iff : r.1 = .ok () ↔ bytes.length ≤ w.room bytes.length

variable {r : Except IoFault Unit × Writer} {cause : IoFault}

/-- A write goes on behind bytes for which there was room. -/
theorem Fills.isWritten_append (hfills : Fills w a w₁) (hroom : a.length ≤ w.room a.length)
    (hscript : w₁.script = w.script) (h : IsWritten w₁ b r) : IsWritten w (a ++ b) r where
  script_eq := h.script_eq.trans hscript
  fills := hfills.append h.fills
  ok_iff := by
    rw [h.ok_iff, hfills.room_eq, List.length_append]
    rcases w.room_cases with hunlimited | ⟨left, hleft⟩
    · simp only [hunlimited]
      omega
    · simp only [hleft] at hroom ⊢
      omega

/-- A write fails only for want of room. -/
theorem IsWritten.not_fits (h : IsWritten w bytes (.error cause, w')) :
    ¬ bytes.length ≤ w.room bytes.length :=
  fun hroom => nomatch h.ok_iff.2 hroom

/-- A write that failed for want of room fails for more bytes as well. -/
theorem IsWritten.fails (h : IsWritten w a (.error cause, w₁)) (b : List UInt8) :
    IsWritten w (a ++ b) (.error cause, w₁) := by
  have hshort := h.not_fits
  have hleft : ∀ n, w.room n = w.room a.length := by
    intro n
    rcases w.room_cases with hunlimited | ⟨left, hleft⟩
    · exact absurd (Nat.le_of_eq (hunlimited a.length).symm) hshort
    · rw [hleft, hleft]
  have hfull : w₁.room b.length = 0 := by
    rw [h.fills.room_eq, hleft]
    omega
  constructor
  case script_eq => exact h.script_eq
  case fills => exact h.fills.append (.of_no_room rfl rfl hfull)
  case ok_iff =>
    rw [hleft, List.length_append]
    exact iff_of_false (fun hok => nomatch hok) (by omega)

theorem IsWritten.of_no_room (hscript : w'.script = w.script) (htaken : w'.taken = w.taken)
    (hne : bytes ≠ []) (hfull : w.isFull = true) : IsWritten w bytes (.error cause, w') := by
  have hroom := room_of_isFull hfull bytes.length
  have hlength := List.length_pos_iff.2 hne
  constructor
  case script_eq => exact hscript
  case fills => exact .of_no_room hscript htaken hroom
  case ok_iff => exact iff_of_false (fun hok => nomatch hok) (by omega)

/-- A write of all bytes fills the room there is. -/
theorem isWritten_writeAll (h : w.script.Takes) (bytes : List UInt8) :
    IsWritten w bytes (w.writeAll bytes) := by
  fun_induction writeAll w bytes with
  | case1 w =>
      exact {
        script_eq := rfl
        fills := .nil rfl rfl
        ok_iff := iff_of_true rfl (Nat.zero_le _) }
  | case2 w bytes hne w' hwrite ih =>
      have hstep := step_of_write hwrite
      cases hstep with
      | interrupted =>
          have hfills : Fills w [] (w.count bytes.length) := .nil rfl rfl
          exact hfills.isWritten_append (Nat.zero_le _) rfl (ih h)
  | case3 w bytes hne cause w' hwrite =>
      have hstep := step_of_write hwrite
      cases hstep with
      | failed _ hfull => exact .of_no_room rfl rfl hne hfull
  | case4 w bytes hne w' hwrite =>
      have hstep := step_of_write hwrite
      cases hstep with
      | refused hfull => exact .of_no_room rfl rfl hne hfull
      | took most _ hreaction hroom hcount =>
          -- a writer with room takes a byte
          have hmost : most ≠ 0 := by
            rintro rfl
            exact h _ hreaction
          have hlength := List.length_pos_iff.2 hne
          have hpos := room_pos_of_not_isFull hroom hlength
          omega
  | case5 w bytes hne count w' hwrite ih =>
      have hstep := step_of_write hwrite
      cases hstep with
      | took most _ hreaction hroom hcount =>
          have hlength : (bytes.take (count + 1)).length = count + 1 := by
            rw [List.length_take]
            omega
          have hfits :
              (bytes.take (count + 1)).length ≤ w.room (bytes.take (count + 1)).length := by
            apply le_room (m := bytes.length)
            omega
          have hfills : Fills w (bytes.take (count + 1)) (w.accept bytes.length _) :=
            .of_room rfl rfl hfits
          have hall := hfills.isWritten_append hfits rfl (ih h)
          rwa [List.take_append_drop] at hall

/-- A flush takes no bytes. -/
theorem fills_flush (w : Writer) : w.Fills [] w.flush.2 := by
  unfold flush
  split
  next => exact .nil rfl rfl
  next => exact .nil rfl rfl

theorem flush_eq_ok_iff (w : Writer) : w.flush.1 = .ok () ↔ w.script.flushFails = false := by
  unfold flush
  split
  next hfails => simp [hfails]
  next hfails => simp [hfails]

theorem writes_flush (w : Writer) : w.flush.2.writes = w.writes := by
  unfold flush
  split <;> rfl

end Writer

namespace Terminal

/-! ## One message -/

/-- The bytes of a message and of the newline behind it. -/
def line (message : Text) : List UInt8 :=
  Text.utf8 message ++ newline

/-- The message and the newline are written as one text is, and flushed if they are written. -/
theorem put_eq {w : Writer} (h : w.script.Takes) (message : Text) :
    ∃ r, w.IsWritten (line message) r ∧ r.2.writes ≤ w.writes + 2 * (line message).length ∧
      put w message = match r with
        | (.error cause, w') => (.error cause, w')
        | (.ok _, w') => w'.flush := by
  have htext := w.isWritten_writeAll h (Text.utf8 message)
  have htextWrites := w.writes_writeAll_le (Text.utf8 message)
  have hlength : (line message).length = (Text.utf8 message).length + newline.length :=
    List.length_append
  unfold put
  rcases htextWrite : w.writeAll (Text.utf8 message) with ⟨result, w₁⟩
  rw [htextWrite] at htext htextWrites
  dsimp only at htextWrites
  cases result with
  | error cause => exact ⟨_, htext.fails newline, by dsimp only; omega, rfl⟩
  | ok =>
      have hnewline := w₁.isWritten_writeAll (htext.script_eq ▸ h) newline
      have hnewlineWrites := w₁.writes_writeAll_le newline
      have hline := htext.fills.isWritten_append (htext.ok_iff.1 rfl) htext.script_eq hnewline
      exact ⟨w₁.writeAll newline, hline, by omega, rfl⟩

/-- A message fills the room there is, and it gets through exactly if there is enough of it and the
flush does not fail. -/
theorem put_of_takes {w : Writer} (h : w.script.Takes) (message : Text) :
    w.Fills (line message) (put w message).2 ∧
      ((put w message).1 = .ok () ↔
        (line message).length ≤ w.room (line message).length ∧ w.script.flushFails = false) ∧
      (put w message).2.writes ≤ w.writes + 2 * (line message).length := by
  rcases put_eq h message with ⟨⟨result, w'⟩, hline, hwrites, hput⟩
  rw [hput]
  cases result with
  | error cause =>
      refine ⟨hline.fills, iff_of_false (fun hok => nomatch hok) ?_, hwrites⟩
      exact fun hthrough => hline.not_fits hthrough.1
  | ok =>
      have hfills := hline.fills.append w'.fills_flush
      rw [List.append_nil] at hfills
      refine ⟨hfills, ?_, ?_⟩
      · rw [Writer.flush_eq_ok_iff, hline.script_eq]
        exact (and_iff_right (hline.ok_iff.1 rfl)).symm
      · rw [Writer.writes_flush]
        exact hwrites

/-! ## Several messages -/

/-- A message, and how the writer fails meanwhile if it does. -/
structure Turn where
  message : Text
  whenFull : WhenFull
  flushFails : Bool

/-- The terminal with a writer that fails as it does in the turn. -/
def facing (t : Terminal) (turn : Turn) : Terminal :=
  ⟨{ t.out with script := { t.out.script with
      whenFull := turn.whenFull
      flushFails := turn.flushFails } }⟩

/-- Writes the message of a turn. -/
def writeTurn (t : Terminal) (turn : Turn) : Terminal × List Diagnostic :=
  (t.facing turn).write turn.message

/-- The terminal after the turns. -/
def afterAll (t : Terminal) (turns : List Turn) : Terminal :=
  turns.foldl (fun t turn => (t.writeTurn turn).1) t

/-- The bytes of all messages, each with a newline behind it. -/
def stream (turns : List Turn) : List UInt8 :=
  turns.flatMap fun turn => line turn.message

/-- A turn fills the room there is, and leaves a remark if its message does not get through. -/
theorem writeTurn_of_takes {t : Terminal} (h : t.out.script.Takes) (turn : Turn) :
    ∃ t' remarks, t.writeTurn turn = (t', remarks) ∧
      t.out.Fills (line turn.message) t'.out ∧
      t'.out.writes ≤ t.out.writes + 2 * (line turn.message).length ∧
      (((line turn.message).length ≤ t.out.room (line turn.message).length ∧
          turn.flushFails = false) ∧ remarks = [] ∨
        ¬ ((line turn.message).length ≤ t.out.room (line turn.message).length ∧
          turn.flushFails = false) ∧ ∃ cause, remarks = [.terminalWriteFailed cause]) := by
  have hput := put_of_takes (w := (t.facing turn).out) h turn.message
  rcases hput with ⟨⟨hreaction, hlimit, hstored⟩, hok, hwrites⟩
  unfold writeTurn write
  rcases hresult : put (t.facing turn).out turn.message with ⟨result, w⟩
  rw [hresult] at hreaction hlimit hstored hok hwrites
  cases result with
  | error cause =>
      refine ⟨⟨w⟩, _, rfl, ⟨hreaction, hlimit, hstored⟩, hwrites, Or.inr ⟨?_, cause, rfl⟩⟩
      exact fun hthrough => nomatch hok.2 hthrough
  | ok =>
      exact ⟨⟨w⟩, _, rfl, ⟨hreaction, hlimit, hstored⟩, hwrites, Or.inl ⟨hok.1 rfl, rfl⟩⟩

/-- The turns fill the room there is one after the other. -/
theorem fills_afterAll {t : Terminal} (h : t.out.script.Takes) (turns : List Turn) :
    t.out.Fills (stream turns) (t.afterAll turns).out := by
  induction turns generalizing t with
  | nil => exact .nil rfl rfl
  | cons turn turns ih =>
      rcases writeTurn_of_takes h turn with ⟨t', remarks, hturn, hfills, -⟩
      have htakes : t'.out.script.Takes := by
        rw [Script.Takes, hfills.reaction_eq]
        exact h
      have hrest := hfills.append (ih htakes)
      rw [afterAll, List.foldl_cons, hturn]
      exact hrest

/-- The message of a turn is shown as a whole, and its flush does not fail. -/
def Turn.GetsThrough (turn : Turn) (t t' : Terminal) : Prop :=
  t'.shown = t.shown ++ line turn.message ∧ turn.flushFails = false

/-- Whatever the writer does at each call and however it fails in each turn, the terminal shows its
stream up to the limit of the writer.  A further message takes at most two writes for each byte, and
leaves no remark if it gets through and one if it does not. -/
theorem shown_afterAll (script : Script) (htakes : script.Takes) (turns : List Turn) :
    (afterAll ⟨{ script }⟩ turns).shown = script.kept (stream turns) ∧
      ∀ turn, ∃ t remarks, (afterAll ⟨{ script }⟩ turns).writeTurn turn = (t, remarks) ∧
        t.out.writes ≤ (afterAll ⟨{ script }⟩ turns).out.writes + 2 * (line turn.message).length ∧
        (turn.GetsThrough (afterAll ⟨{ script }⟩ turns) t ∧ remarks = [] ∨
          ¬ turn.GetsThrough (afterAll ⟨{ script }⟩ turns) t ∧
            ∃ cause, remarks = [.terminalWriteFailed cause]) := by
  have hfills := fills_afterAll (t := ⟨{ script }⟩) htakes turns
  constructor
  · rw [shown, hfills.stored_eq, Writer.room, Script.kept]
    cases script.limit with
    | none => simp [Writer.stored]
    | some limit => simp [Writer.stored]
  · intro turn
    have hnext : (afterAll ⟨{ script }⟩ turns).out.script.Takes := by
      rw [Script.Takes, hfills.reaction_eq]
      exact htakes
    rcases writeTurn_of_takes hnext turn with ⟨t, remarks, hturn, hline, hwrites, hremarks⟩
    have hthrough : turn.GetsThrough (afterAll ⟨{ script }⟩ turns) t ↔
        (line turn.message).length ≤
            (afterAll ⟨{ script }⟩ turns).out.room (line turn.message).length ∧
          turn.flushFails = false := by
      rw [Turn.GetsThrough, shown, shown, hline.stored_eq, List.append_cancel_left_eq,
        List.take_eq_self_iff]
    rw [← hthrough] at hremarks
    exact ⟨t, remarks, hturn, hwrites, hremarks⟩

/-- A writer of five bytes that takes at most two at a time and is interrupted in every second
call. -/
def narrow : Script where
  reaction := Script.periodic 2 2
  patient := Script.periodic_patient 2 2
  limit := some 5
  whenFull := .fail
  flushFails := false

theorem takes_narrow : narrow.Takes := by
  intro call
  change Script.periodic 2 2 call ≠ .take 0
  unfold Script.periodic
  split <;> simp

/-- The second line is cut behind its letter, and only then is there a remark. -/
theorem shown_afterAll_narrow :
    narrow.Takes ∧
      (afterAll ⟨{ script := narrow }⟩ [⟨['a', 'b', 'c'], .fail, false⟩]).shown =
        [97, 98, 99, 10] ∧
      (afterAll ⟨{ script := narrow }⟩
        [⟨['a', 'b', 'c'], .fail, false⟩, ⟨['d'], .takeNothing, false⟩]).shown =
          [97, 98, 99, 10, 100] ∧
      ∃ cause, ((afterAll ⟨{ script := narrow }⟩ [⟨['a', 'b', 'c'], .fail, false⟩]).writeTurn
        ⟨['d'], .takeNothing, false⟩).2 = [.terminalWriteFailed cause] := by
  rcases shown_afterAll narrow takes_narrow [⟨['a', 'b', 'c'], .fail, false⟩] with
    ⟨hshown, hnext⟩
  have hboth := (shown_afterAll narrow takes_narrow
    [⟨['a', 'b', 'c'], .fail, false⟩, ⟨['d'], .takeNothing, false⟩]).1
  refine ⟨takes_narrow, hshown, hboth, ?_⟩
  rcases hnext ⟨['d'], .takeNothing, false⟩ with ⟨t, remarks, hturn, -, hremarks⟩
  rw [hturn]
  rcases hremarks with ⟨⟨hwhole, -⟩, -⟩ | ⟨-, hremark⟩
  · -- the line would need a sixth byte
    have hsecond : t.shown = [97, 98, 99, 10, 100] := by
      have hlast := congrArg (fun answer => answer.1.shown) hturn
      exact hlast.symm.trans hboth
    rw [hsecond, hshown] at hwhole
    exact absurd hwhole (by decide)
  · exact hremark

end Terminal

end EventLog
