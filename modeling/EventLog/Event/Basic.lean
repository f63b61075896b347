import EventLog.Event.InlineText
import EventLog.Text.Quoted

/-!
# Events

An event is a header with a body that depends on its kind.  Its line is the tag in
brackets, then its fields, each with its name, an equals sign, its value and a space.

An event is built from a tuple of arguments, one for each field and in the order of the
fields: every field of a default event of its kind is assigned.
-/

namespace EventLog

/-! ## Severities -/

/-- How serious an event is, in increasing order. -/
inductive Severity where
  | info
  /-- Something unexpected from which the program recovered. -/
  | warn
  | error
  deriving DecidableEq, Repr, Inhabited

namespace Severity

/-- The number of a severity; a larger number is more serious. -/
def rank : Severity → Nat
  | info => 0
  | warn => 1
  | error => 2

/-- The name in rendered lines. -/
def name : Severity → String
  | info => "Info"
  | warn => "Warn"
  | error => "Error"

/-- Severities compare by rank. -/
instance : Ord Severity where
  compare a b := compare a.rank b.rank

/-- The more serious of two severities. -/
def max (a b : Severity) : Severity :=
  if a.rank ≤ b.rank then b else a

/-- The severity of an event that names none. -/
def default : Severity := info

/-- The severity with a given name. -/
def ofName? (s : String) : Option Severity :=
  [info, warn, error].find? fun a => a.name = s

end Severity

/-! ## Tags -/

/-- The kinds of payload. -/
inductive Tag where
  /-- A header and nothing else. -/
  | generic
  /-- An incoming request with its id and its path. -/
  | request
  deriving DecidableEq, Repr

namespace Tag

/-- The number in front of a rendered line. -/
def number : Tag → Nat
  | generic => 0
  | request => 1

/-- All tags, by number. -/
def all : List Tag := [generic, request]

end Tag

/-! ## Fields -/

/-- What stands behind the equals sign of a field. -/
inductive FieldValue where
  /-- An unsigned number, in decimal digits. -/
  | number (n : Nat)
  /-- A severity, by name. -/
  | severity (s : Severity)
  /-- A text, quoted where it has to be. -/
  | text (s : Text)
  deriving DecidableEq, Repr

namespace FieldValue

/-- The rendered form of a value. -/
def render : FieldValue → Text
  | number n => Decimal.write n
  | severity s => s.name.toList
  | text s => Quoted.encode s

end FieldValue

/-- A named value. -/
structure Field where
  name : Text
  value : FieldValue
  deriving DecidableEq, Repr

namespace Field

/-- The rendered form of a field, with the space that ends it. -/
def render (f : Field) : Text :=
  f.name ++ '=' :: f.value.render ++ [' ']

/-- The rendered form of fields in order. -/
def renderAll (fields : List Field) : Text :=
  fields.flatMap render

/-- Appends a rendered field to a text. -/
def push (out : Text) (f : Field) : Text :=
  out ++ f.render

end Field

/-! ## Thread numbers

Threads get small numbers in the order in which they first ask for one, from one on.
A thread keeps its number. -/

/-- The threads that have a number, in the order in which they got it. -/
structure ThreadNumbers where
  /-- The threads, by an identification of their own. -/
  known : List Nat := []
  deriving Repr, Inhabited

namespace ThreadNumbers

/-- The number of a thread that has one. -/
def get? (t : ThreadNumbers) (thread : Nat) : Option Nat :=
  (t.known.idxOf? thread).map (· + 1)

/-- The number of a thread, given now if it has none. -/
def ask (t : ThreadNumbers) (thread : Nat) : Nat × ThreadNumbers :=
  match t.get? thread with
  | some number => (number, t)
  | none => (t.known.length + 1, ⟨t.known ++ [thread]⟩)

end ThreadNumbers

/-! ## Headers -/

/-- The version written into headers by default. -/
def defaultSchemaVersion : UInt16 := 1

/-- What every event says about itself. -/
structure Header where
  /-- How serious the event is. -/
  severity : Severity := .default
  /-- Monotonic time, in ticks. -/
  timestamp : UInt64 := 0
  /-- The small number of the thread that made the event. -/
  threadId : UInt32 := 0
  /-- Ties events of one request together. -/
  requestId : UInt32 := 0
  /-- The class that the event comes from, by number. -/
  classId : UInt16 := 0
  /-- The method that the event comes from, by number. -/
  methodId : UInt16 := 0
  /-- The version of the layout. -/
  schemaVersion : UInt16 := defaultSchemaVersion
  deriving DecidableEq, Repr, Inhabited

namespace Header

/-- The fields of a header in order. -/
def fields (h : Header) : List Field :=
  [⟨"severity".toList, .severity h.severity⟩,
   ⟨"timestamp".toList, .number h.timestamp.toNat⟩,
   ⟨"thread_id".toList, .number h.threadId.toNat⟩,
   ⟨"request_id".toList, .number h.requestId.toNat⟩,
   ⟨"class_id".toList, .number h.classId.toNat⟩,
   ⟨"method_id".toList, .number h.methodId.toNat⟩,
   ⟨"schema_version".toList, .number h.schemaVersion.toNat⟩]

/-- The rendered header. -/
def render (h : Header) : Text :=
  Field.renderAll h.fields

/-- The header of an event made at a given time by a given thread. -/
def stamped (severity : Severity) (timestamp : UInt64) (threadId requestId : UInt32)
    (classId methodId : UInt16) : Header :=
  { severity, timestamp, threadId, requestId, classId, methodId }

end Header

/-! ## Events -/

/-- The number of bytes kept of a request's path. -/
def requestPathCapacity : Nat := 128

/-- The path of a request, cut to its capacity. -/
abbrev RequestPath := InlineText requestPathCapacity

/-- One log event. -/
inductive Event where
  | generic (header : Header)
  | request (header : Header) (uniqueId : UInt64) (path : RequestPath)
  deriving BEq

namespace Event

/-- The kind of an event. -/
def tag : Event → Tag
  | generic _ => .generic
  | request .. => .request

/-- The header of an event. -/
def header : Event → Header
  | generic h => h
  | request h _ _ => h

/-- The fields of the body. -/
def bodyFields : Event → List Field
  | generic _ => []
  | request _ uniqueId path =>
    [⟨"req_unique_id".toList, .number uniqueId.toNat⟩, ⟨"path".toList, .text path.text⟩]

/-- All fields in order. -/
def fields (e : Event) : List Field :=
  e.header.fields ++ e.bodyFields

/-- The event of a kind with every field at its default. -/
def default : Tag → Event
  | .generic => generic {}
  | .request => request {} 0 InlineText.empty

/-- The names of the fields of a kind, in order. -/
def fieldNames (t : Tag) : List Text :=
  (default t).fields.map Field.name

/-- The tag in brackets that opens a line. -/
def tagToken (number : Nat) : Text :=
  "[tag=".toList ++ Decimal.write number ++ [']']

/-- The line of fields under a tag. -/
def lineOf (number : Nat) (fields : List Field) : Text :=
  tagToken number ++ ' ' :: Field.renderAll fields

/-- The rendered line of an event. -/
def line (e : Event) : Text :=
  lineOf e.tag.number e.fields

end Event

/-! ## Building -/

/-- The arguments of the fields that every event has, in their order. -/
abbrev HeaderArgs : Type :=
  Severity × UInt64 × UInt32 × UInt32 × UInt16 × UInt16 × UInt16

/-- Assigns every field of a header. -/
def Header.assign (h : Header) : HeaderArgs → Header
  | (severity, timestamp, threadId, requestId, classId, methodId, schemaVersion) =>
    { h with severity, timestamp, threadId, requestId, classId, methodId, schemaVersion }

namespace Event

/-- The arguments of the fields of a kind of event, in their order. -/
def Args : Tag → Type
  | .generic => HeaderArgs
  | .request =>
    Severity × UInt64 × UInt32 × UInt32 × UInt16 × UInt16 × UInt16 × UInt64 × RequestPath

/-- The event of a kind with every field assigned. -/
def build : (t : Tag) → Args t → Event
  | .generic, args => .generic (({} : Header).assign args)
  | .request, (severity, timestamp, threadId, requestId, classId, methodId, schemaVersion,
      uniqueId, path) =>
    .request
      (({} : Header).assign
        (severity, timestamp, threadId, requestId, classId, methodId, schemaVersion))
      uniqueId path

end Event

end EventLog
