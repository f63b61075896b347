import EventLog.Delivery.FileTree
import EventLog.Delivery.Writer
import EventLog.Diagnostic
import EventLog.Line.Sink

/-!
# Publishers

A publisher is a sink, which says how a line becomes a message, and a destination,
which says where the message goes.  The two are chosen independently.

A terminal writes each message and a newline to a writer, and flushes it.  A log file
appends both to a file; one that cannot be opened leads to one remark and then to
silence.  A message that does not get through is skipped with a remark; the one who
writes never learns of it.
-/

namespace EventLog

/-! ## Terminals -/

/-- The byte that ends a message. -/
def newline : List UInt8 := [10]

/-- A destination that writes to a writer. -/
structure Terminal where
  out : Writer

namespace Terminal

/-- A terminal in memory. -/
def memory : Terminal := ⟨.memory⟩

/-- Writes the message, the newline and the flush, up to the first that fails. -/
def put (w : Writer) (message : Text) : Except IoFault Unit × Writer :=
  match w.writeAll (Text.utf8 message) with
  | (.error cause, w) => (.error cause, w)
  | (.ok _, w) =>
    match w.writeAll newline with
    | (.error cause, w) => (.error cause, w)
    | (.ok _, w) => w.flush

/-- Writes a message. -/
def write (t : Terminal) (message : Text) : Terminal × List Diagnostic :=
  match put t.out message with
  | (.ok _, w) => (⟨w⟩, [])
  | (.error cause, w) => (⟨w⟩, [.terminalWriteFailed cause])

/-- The bytes that the terminal shows. -/
def shown (t : Terminal) : List UInt8 := t.out.stored

/-- The shown form of a terminal in memory. -/
def describe (t : Terminal) : String :=
  "TerminalPolicy \x7b out: " ++ Panic.byteList t.shown ++ " \x7d"

end Terminal

/-! ## Log files -/

/-- A destination that appends to a file. -/
structure LogFile where
  path : String
  /-- The open file, if it could be opened. -/
  handle : Option FileHandle
  deriving DecidableEq, Repr

namespace LogFile

/-- Opens a log file; the fault goes to the caller. -/
def open? (files : FileTree) (path : String) : Except Fault (LogFile × FileTree) :=
  match files.openAppend path with
  | .error cause => .error (.io cause)
  | .ok (handle, files) => .ok (⟨path, some handle⟩, files)

/-- Opens a log file, or remarks that it will stay silent. -/
def new (files : FileTree) (path : String) : LogFile × FileTree × List Diagnostic :=
  match files.openAppend path with
  | .error cause => (⟨path, none⟩, files, [.openFailed path cause])
  | .ok (handle, files) => (⟨path, some handle⟩, files, [])

/-- The file could be opened. -/
def isOpen (f : LogFile) : Bool := f.handle.isSome

/-- Writes a message. -/
def write (f : LogFile) (files : FileTree) (message : Text) : FileTree × List Diagnostic :=
  match f.handle with
  | none => (files, [])
  | some handle =>
    match files.append handle (message ++ ['\n']) with
    | .ok files => (files, [])
    | .error cause => (files, [.fileWriteFailed f.path cause])

end LogFile

/-! ## Publishers -/

/-- A place for messages. -/
class Destination (ρ : Type) where
  /-- Writes one message. -/
  write : ρ → Text → ρ × List Diagnostic

instance : Destination Terminal where
  write := Terminal.write

/-- A log file together with the tree that it lies in. -/
structure StoredLog where
  file : LogFile
  files : FileTree

instance : Destination StoredLog where
  write s message :=
    let (files, remarks) := s.file.write s.files message
    ({ s with files }, remarks)

/-- A destination and the form of its messages. -/
structure Publisher (ρ : Type) where
  destination : ρ
  /-- How lines become messages. -/
  sink : Sink

namespace Publisher

variable {ρ : Type} [Destination ρ]

/-- Writes the message of a rendered line. -/
def publishLine (p : Publisher ρ) (line : Text) : Publisher ρ × List Diagnostic :=
  let (destination, remarks) := Destination.write p.destination (p.sink.format line)
  ({ p with destination }, remarks)

/-- Writes the message of a value that is rendered by `adapter`. -/
def publish {α : Type} (p : Publisher ρ) (a : α) (adapter : α → Text) :
    Publisher ρ × List Diagnostic :=
  p.publishLine (adapter a)

/-- The shown form of a publisher to a terminal in memory. -/
def describe (p : Publisher Terminal) : String :=
  "Publisher \x7b policy: " ++ p.destination.describe ++ ", sink: " ++
    Literal.ofString p.sink.typeName ++ " \x7d"

end Publisher

end EventLog
