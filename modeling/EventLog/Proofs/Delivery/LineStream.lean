import EventLog.Delivery.Publisher
import EventLog.Proofs.Json.Controls
import EventLog.Proofs.Line.DistinctLines

/-!
# Streams of messages

A terminal ends each message with a newline.  No message that is made from an event holds a
newline itself, whatever stands in the path: a text with a newline is quoted, and between quotes
a newline is written with a backslash, in a line as well as in a JSON message.  So the bytes
that a terminal shows fall into one line for each event.

Main results:

- `Json.Object.newline_not_mem_write`: no JSON message holds a newline.
- `Line.newline_not_mem_textMessage`: no text message of an event holds a newline.
- `Writer.writeAll_of_unlimited`: a writer in memory takes all bytes.
- `Publisher.splitOn_shown_publishAll`: the lines of the stream are the messages.
-/

namespace EventLog

/-! ## Newlines in bytes -/

namespace Text

/-- Only the newline has a byte ten. -/
theorem eq_newline_of_mem_utf8EncodeChar {c : Char} (h : 10 ∈ String.utf8EncodeChar c) :
    c = '\n' := by
  have hbyte : ∀ n : Nat, n < 256 → (10 : UInt8) = UInt8.ofNat n → n = 10 := by
    intro n hn heq
    have hnat := congrArg UInt8.toNat heq
    rw [UInt8.toNat_ofNat_of_lt' hn] at hnat
    exact hnat.symm
  simp only [String.utf8EncodeChar] at h
  split at h
  · have hten := hbyte c.val.toNat (by omega) (List.mem_singleton.1 h)
    exact Char.ext (UInt32.toNat_inj.1 hten)
  -- every byte of a longer character is at least 128
  split at h
  · simp only [List.mem_cons, List.not_mem_nil, or_false] at h
    rcases h with h | h <;> exact absurd (hbyte _ (by omega) h) (by omega)
  split at h
  · simp only [List.mem_cons, List.not_mem_nil, or_false] at h
    rcases h with h | h | h <;> exact absurd (hbyte _ (by omega) h) (by omega)
  · simp only [List.mem_cons, List.not_mem_nil, or_false] at h
    rcases h with h | h | h | h <;> exact absurd (hbyte _ (by omega) h) (by omega)

/-- A text has a byte ten exactly if it has a newline. -/
theorem newline_mem_utf8_iff {s : Text} : 10 ∈ utf8 s ↔ '\n' ∈ s := by
  rw [utf8, List.mem_flatMap]
  constructor
  · rintro ⟨c, hc, hbyte⟩
    exact eq_newline_of_mem_utf8EncodeChar hbyte ▸ hc
  · intro hs
    exact ⟨'\n', hs, by decide⟩

end Text

/-! ## Newlines in JSON messages -/

/-- No JSON message holds a newline. -/
theorem Json.Object.newline_not_mem_write (o : Object) : '\n' ∉ o.write :=
  fun h => absurd (le_toNat_of_mem_write h) (by decide)

/-! ## Newlines in text messages -/

namespace Quoted

theorem newline_not_mem_escape (c : Char) : '\n' ∉ escape c := by
  by_cases hnewline : c = '\n'
  · subst hnewline
    decide
  · unfold escape
    repeat' split
    all_goals simp [Ne.symm hnewline]

/-- A text with a newline is quoted, and between quotes the newline is escaped. -/
theorem newline_not_mem_encode (s : Text) : '\n' ∉ encode s := by
  rcases encode_cases s with hquoted | ⟨hbare, -, hchars⟩
  · rw [hquoted]
    simp [newline_not_mem_escape]
  · rw [hbare]
    intro hs
    exact absurd (hchars '\n' hs).1 (by decide)

end Quoted

namespace Field

theorem newline_not_mem_render {f : Field} (h : '\n' ∉ f.name) : '\n' ∉ f.render := by
  have hvalue : '\n' ∉ f.value.render := by
    cases f.value with
    | number n => exact fun h => Decimal.ne_of_mem_write h (by decide) rfl
    | severity s => cases s <;> decide
    | text s => exact Quoted.newline_not_mem_encode s
  simp [render, h, hvalue]

end Field

namespace Event

/-- The named fields have the names of the kind of the event. -/
theorem names_namedFields (e : Event) : e.namedFields.map Field.name = fieldNames e.tag := by
  cases e with
  | generic header => rfl
  | request header uniqueId path => rfl

theorem newline_not_mem_fieldNames (t : Tag) : ∀ name ∈ fieldNames t, '\n' ∉ name := by
  cases t with
  | generic => decide
  | request => decide

end Event

namespace Line

/-- No text message of an event holds a newline. -/
theorem newline_not_mem_textMessage (e : Event) : '\n' ∉ textMessage e.line := by
  have htag : '\n' ∉ Event.tagToken e.tag.number := by
    cases e.tag <;> decide
  have hfields : '\n' ∉ Field.renderAll e.namedFields := by
    rw [Field.renderAll, List.mem_flatMap]
    rintro ⟨f, hf, hnewline⟩
    refine Field.newline_not_mem_render ?_ hnewline
    apply Event.newline_not_mem_fieldNames e.tag
    rw [← Event.names_namedFields]
    exact List.mem_map_of_mem hf
  rw [textMessage_eq_lineOf, Event.lineOf]
  simp [htag, hfields]

end Line

/-- Neither message of an event holds a newline. -/
theorem Sink.newline_not_mem_format (sink : Sink) (e : Event) : '\n' ∉ sink.format e.line := by
  cases sink with
  | text => exact Line.newline_not_mem_textMessage e
  | json => exact Json.Object.newline_not_mem_write _

/-! ## Writing to memory -/

namespace Writer

variable {w : Writer}

/-- One write to memory takes as many bytes as a call can. -/
theorem write_of_unlimited (h : w.script = .unlimited) (bytes : List UInt8) :
    ∃ w', w.write bytes = (.wrote (min bytes.length UInt64.size), w') ∧ w'.script = .unlimited ∧
      w'.stored = w.stored ++ bytes.take (min bytes.length UInt64.size) := by
  have hscript : (w.write bytes).2.script = .unlimited := (script_write w bytes).trans h
  refine ⟨(w.write bytes).2, ?_, hscript, ?_⟩
  · simp [write, h, Script.unlimited, isFull, room]
  · simp [write, h, Script.unlimited, isFull, room, count, stored]

/-- A writer in memory takes all bytes. -/
theorem writeAll_of_unlimited (h : w.script = .unlimited) (bytes : List UInt8) :
    ∃ w', w.writeAll bytes = (.ok (), w') ∧ w'.script = .unlimited ∧
      w'.stored = w.stored ++ bytes := by
  fun_induction writeAll w bytes with
  | case1 w => exact ⟨w, rfl, h, by simp⟩
  | case2 w bytes hne w' hwrite ih =>
      rcases write_of_unlimited h bytes with ⟨w₁, hall, -, -⟩
      simp [hall] at hwrite
  | case3 w bytes hne cause w' hwrite =>
      rcases write_of_unlimited h bytes with ⟨w₁, hall, -, -⟩
      simp [hall] at hwrite
  | case4 w bytes hne w' hwrite =>
      rcases write_of_unlimited h bytes with ⟨w₁, hall, -, -⟩
      have hcount : min bytes.length UInt64.size = 0 := by
        rw [hall] at hwrite
        simpa using congrArg Prod.fst hwrite
      have hlength := List.length_pos_iff.2 hne
      have hsize : 0 < UInt64.size := by decide
      omega
  | case5 w bytes hne count w' hwrite ih =>
      rcases write_of_unlimited h bytes with ⟨w₁, hall, hscript, hstored⟩
      rw [hall, Prod.mk.injEq, Outcome.wrote.injEq] at hwrite
      rcases hwrite with ⟨hcount, rfl⟩
      rcases ih hscript with ⟨w₂, hrest, hscript₂, hstored₂⟩
      refine ⟨w₂, hrest, hscript₂, ?_⟩
      rw [hstored₂, hstored, hcount, List.append_assoc, List.take_append_drop]

end Writer

namespace Terminal

/-- A terminal in memory shows each message with a newline behind it. -/
theorem write_of_unlimited {t : Terminal} (h : t.out.script = .unlimited) (message : Text) :
    ∃ t', t.write message = (t', []) ∧ t'.out.script = .unlimited ∧
      t'.shown = t.shown ++ Text.utf8 message ++ newline := by
  rcases Writer.writeAll_of_unlimited h (Text.utf8 message) with ⟨w₁, hmessage, hscript₁, hstored₁⟩
  rcases Writer.writeAll_of_unlimited hscript₁ newline with ⟨w₂, hnewline, hscript₂, hstored₂⟩
  have hflush : w₂.flush = (.ok (), { w₂ with calls := .flush :: w₂.calls }) := by
    simp [Writer.flush, hscript₂, Script.unlimited]
  refine ⟨⟨{ w₂ with calls := .flush :: w₂.calls }⟩, ?_, hscript₂, ?_⟩
  · simp only [write, put, hmessage, hnewline, hflush]
  · calc
      w₂.stored = w₁.stored ++ newline := hstored₂
      _ = t.out.stored ++ Text.utf8 message ++ newline := by rw [hstored₁]

end Terminal

/-! ## The stream of events -/

namespace Publisher

variable {ρ : Type} [Destination ρ]

/-- Publishes the lines of events in order. -/
def publishAll (p : Publisher ρ) : List Event → Publisher ρ × List Diagnostic
  | [] => (p, [])
  | e :: events =>
    let (p, remarks) := p.publishLine e.line
    let (p, rest) := p.publishAll events
    (p, remarks ++ rest)

/-- What a terminal shows of the messages of events. -/
def stream (sink : Sink) (events : List Event) : List UInt8 :=
  events.flatMap fun e => Text.utf8 (sink.format e.line) ++ newline

/-- A terminal in memory shows the stream of all events. -/
theorem publishAll_of_unlimited {p : Publisher Terminal}
    (h : p.destination.out.script = .unlimited) (events : List Event) :
    ∃ p', p.publishAll events = (p', []) ∧
      p'.destination.shown = p.destination.shown ++ stream p.sink events := by
  induction events generalizing p with
  | nil => exact ⟨p, rfl, by simp [stream]⟩
  | cons e events ih =>
      rcases Terminal.write_of_unlimited h (p.sink.format e.line) with
        ⟨t, hwrite, hscript, hshown⟩
      have hline : p.publishLine e.line = ({ p with destination := t }, []) := by
        simp only [publishLine, Destination.write, hwrite]
      rcases ih (p := { p with destination := t }) hscript with ⟨p', hrest, hstream⟩
      refine ⟨p', ?_, ?_⟩
      · simp only [publishAll, hline, hrest, List.append_nil]
      · simp only [hstream, hshown, stream, List.flatMap_cons, List.append_assoc]

/-- The stream splits at its newlines into the messages, and nothing stands behind the last
newline. -/
theorem splitOn_stream (sink : Sink) (events : List Event) :
    (stream sink events).splitOn 10 =
      events.map (fun e => Text.utf8 (sink.format e.line)) ++ [[]] := by
  induction events with
  | nil => rfl
  | cons e events ih =>
      have hmessage : 10 ∉ Text.utf8 (sink.format e.line) := by
        rw [Text.newline_mem_utf8_iff]
        exact sink.newline_not_mem_format e
      have hsplit : stream sink (e :: events) =
          Text.utf8 (sink.format e.line) ++ 10 :: stream sink events := by
        simp [stream, newline]
      rw [hsplit, List.splitOn_append_cons_self_of_not_mem hmessage, ih]
      rfl

/-- Events that are published to a terminal in memory, through either sink, leave one line each,
in order, and their lines are their messages.  No message of an event, published or not, holds a
newline. -/
theorem splitOn_shown_publishAll (sink : Sink) (events : List Event) :
    ∃ p, publishAll ⟨Terminal.memory, sink⟩ events = (p, []) ∧
      p.destination.shown.splitOn 10 =
        events.map (fun e => Text.utf8 (sink.format e.line)) ++ [[]] ∧
      p.destination.shown =
        events.flatMap (fun e => Text.utf8 (sink.format e.line) ++ newline) ∧
      ∀ e : Event, '\n' ∉ sink.format e.line := by
  rcases publishAll_of_unlimited (p := ⟨Terminal.memory, sink⟩) rfl events with
    ⟨p, hpublish, hshown⟩
  have hstream : p.destination.shown = stream sink events := by
    rw [hshown]
    rfl
  refine ⟨p, hpublish, ?_, hstream, sink.newline_not_mem_format⟩
  rw [hstream, splitOn_stream]

end Publisher

end EventLog
