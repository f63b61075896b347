import EventLog.Engine.Basic
import EventLog.Delivery.Publisher

/-!
# Payloads and targets for rehearsals

A rehearsal needs payloads that can fail where it wants them to, and a target that
tells what it was given.  A marked payload is a text that is its own line; the
beginning of the text decides whether rendering or delivering it returns.
-/

namespace EventLog

namespace Rehearsal

/-! ## Payloads -/

/-- What is logged in a rehearsal. -/
inductive Item where
  | event (e : Event)
  /-- A text that is its own line. -/
  | marked (text : Text)

namespace Item

/-- Rendering a text that starts so does not return. -/
def renderMark : Text := "!render".toList

/-- Delivering a text that starts so does not return. -/
def deliverMark : Text := "!panic".toList

/-- The text of a marked payload. -/
def mark? : Item → Option Text
  | event _ => none
  | marked text => some text

/-- The payload is a marked one. -/
def isMarked (a : Item) : Bool := a.mark?.isSome

/-- The payload is marked with a text that starts so. -/
def hasMark (beginning : Text) (a : Item) : Bool :=
  a.mark?.any fun text => beginning.isPrefixOf text

instance : Payload Item where
  tag
    | event e => e.tag
    | marked _ => .generic
  header
    | event e => e.header
    | marked _ => {}
  render a :=
    if a.hasMark renderMark then none
    else match a with
      | event e => some e.line
      | marked text => some text

end Item

/-! ## Targets -/

/-- Where the messages of a rehearsal go. -/
inductive Outlet where
  | memory (terminal : Terminal)
  | stored (log : StoredLog)

namespace Outlet

instance : Destination Outlet where
  write
    | memory terminal, message =>
      let (terminal, remarks) := terminal.write message
      (memory terminal, remarks)
    | stored log, message =>
      let (log, remarks) := Destination.write log message
      (stored log, remarks)

/-- The bytes that got through. -/
def output : Outlet → List UInt8
  | memory terminal => terminal.shown
  | stored log => Text.utf8 ((log.files.read? log.file.path).getD [])

end Outlet

/-- A publisher that keeps the tag and the header of what it delivered. -/
structure Recorder where
  publisher : Publisher Outlet
  /-- What was delivered, the last one first. -/
  delivered : List (Tag × Header) := []

namespace Recorder

/-- How many payloads of a kind were delivered. -/
def countOf (r : Recorder) (tag : Tag) : Nat :=
  r.delivered.countP fun d => d.1 = tag

/-- The sum of the schema versions that were delivered. -/
def versionSum (r : Recorder) : Nat :=
  (r.delivered.map fun d => d.2.schemaVersion.toNat).foldl (· + ·) 0

instance : Target Item Recorder where
  deliver a line r :=
    if a.hasMark Item.deliverMark then none
    else
      let (publisher, remarks) := r.publisher.publishLine line
      some (⟨publisher, (Payload.tag a, Payload.header a) :: r.delivered⟩, remarks)

end Recorder

end Rehearsal

end EventLog
