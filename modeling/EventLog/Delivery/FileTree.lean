import EventLog.Fault
import EventLog.Text.Basic

/-!
# File trees

The directory that log files lie in, with what files and directories are below it.
A file lives on without a name as long as it is open, so names lead to numbers and
numbers to contents.  One name leads out of the directory: a device on which every
write finds no space.
-/

namespace EventLog

/-- What a name can lead to. -/
inductive FileEntry where
  | directory
  /-- The file with a number. -/
  | file (number : Nat)
  deriving DecidableEq, Repr

/-- An open file. -/
inductive FileHandle where
  /-- The file with a number. -/
  | file (number : Nat)
  /-- The device without space. -/
  | fullDevice
  deriving DecidableEq, Repr

/-- Files and directories below one directory. -/
structure FileTree where
  /-- What lies where, by the components of the name. -/
  entries : List (List String × FileEntry) := []
  /-- The contents of each file, by number. -/
  contents : Array Text := #[]
  deriving Repr, Inhabited

namespace FileTree

/-! ## Names -/

/-- The most bytes of one component of a name. -/
def maxComponent : Nat := 255

/-- The most bytes of a whole name.  A path has at most 4095 bytes, of which the path of
the directory and a slash take some. -/
def maxName : Nat := 4064

/-- The name of the device without space. -/
def fullDeviceName : String := "/dev/full"

/-- The components of a name. -/
def components (name : String) : List String :=
  (name.splitOn "/").filter (· ≠ "")

/-- The name ends in a slash. -/
def endsInSlash (name : String) : Bool :=
  name.toList.getLast? = some '/'

/-- The name contains the character zero. -/
def containsZero (name : String) : Bool :=
  name.toList.contains '\x00'

/-- A component that leads nowhere: an empty one, or a single dot. -/
def isIdle (component : String) : Bool :=
  component = "" || component = "."

/-- The name without idle components in front and behind. -/
def relative (name : String) : String :=
  if name = fullDeviceName then name
  else "/".intercalate
    ((((name.splitOn "/").dropWhile isIdle).reverse.dropWhile isIdle).reverse)

/-! ## Walking -/

/-- What lies at a place; the place without components is the directory itself. -/
def entry? (t : FileTree) (place : List String) : Option FileEntry :=
  if place = [] then some .directory
  else (t.entries.find? fun e => e.1 = place).map Prod.snd

/-- Walks from a place through directories, and ends at one. -/
def walk (t : FileTree) : List String → List String → Except IoFault (List String)
  | place, components =>
    match t.entry? place with
    | none => .error .notFound
    | some (.file _) => .error .notADirectory
    | some .directory =>
      match components with
      | [] => .ok place
      | "." :: rest => walk t place rest
      | ".." :: rest => walk t place.dropLast rest
      | c :: rest =>
        if maxComponent < c.utf8ByteSize then .error .nameTooLong else walk t (place ++ [c]) rest
termination_by _ components => components.length

/-- The place that a name stands for: the directory is there, the last component need
not be.  A name that can only stand for a directory is refused.  Of several faults the
character zero comes first, then the length of the whole name, then the walk. -/
def placeOf (t : FileTree) (name : String) : Except IoFault (List String) :=
  if containsZero name then .error .zeroInName
  else if maxName < name.utf8ByteSize then .error .nameTooLong
  else
    match (components name).getLast? with
    | none => .error .isADirectory
    | some last =>
      if last = "." ∨ last = ".." then
        match t.walk [] (components name) with
        | .error cause => .error cause
        | .ok _ => .error .isADirectory
      else
        match t.walk [] (components name).dropLast with
        | .error cause => .error cause
        | .ok place => .ok (place ++ [last])

/-- The last component of a place is not too long. -/
def lastFits (place : List String) : Bool :=
  match place.getLast? with
  | none => true
  | some last => last.utf8ByteSize ≤ maxComponent

/-! ## Operations -/

/-- Opens a file for appending, and makes it if it is not there. -/
def openAppend (t : FileTree) (name : String) : Except IoFault (FileHandle × FileTree) :=
  if name = fullDeviceName then .ok (.fullDevice, t)
  else
    match t.placeOf name with
    | .error cause => .error cause
    | .ok place =>
      if endsInSlash name then .error .isADirectory
      else if !lastFits place then .error .nameTooLong
      else
        match t.entry? place with
        | some .directory => .error .isADirectory
        | some (.file number) => .ok (.file number, t)
        | none =>
          .ok (.file t.contents.size,
            { entries := (place, .file t.contents.size) :: t.entries,
              contents := t.contents.push [] })

/-- Appends to an open file. -/
def append (t : FileTree) (h : FileHandle) (s : Text) : Except IoFault FileTree :=
  match h with
  | .fullDevice => if s = [] then .ok t else .error .noSpace
  | .file number => .ok { t with contents := t.contents.modify number (· ++ s) }

/-- Replaces the contents of a file, and makes it if it is not there. -/
def put (t : FileTree) (name : String) (s : Text) : Except IoFault FileTree :=
  match t.openAppend name with
  | .error cause => .error cause
  | .ok (.fullDevice, t) => t.append .fullDevice s
  | .ok (.file number, t) => .ok { t with contents := t.contents.setIfInBounds number s }

/-- The place below the directory that a name stands for; the device has none. -/
def ownPlace? (t : FileTree) (name : String) : Option (List String) :=
  if name = fullDeviceName then none else (t.placeOf name).toOption

/-- The contents of the file with a name. -/
def read? (t : FileTree) (name : String) : Option Text :=
  match t.ownPlace? name with
  | none => none
  | some place =>
    if endsInSlash name then none
    else
      match t.entry? place with
      | some (.file number) => t.contents[number]?
      | _ => none

/-- Makes a directory; nothing may be there. -/
def makeDirectory (t : FileTree) (name : String) : Option FileTree :=
  match t.ownPlace? name with
  | none => none
  | some place =>
    if lastFits place ∧ t.entry? place = none then
      some { t with entries := (place, .directory) :: t.entries }
    else none

/-- Removes the name of a file. -/
def remove (t : FileTree) (name : String) : Option FileTree :=
  match t.ownPlace? name with
  | none => none
  | some place =>
    if endsInSlash name then none
    else
      match t.entry? place with
      | some (.file _) => some { t with entries := t.entries.filter fun e => e.1 ≠ place }
      | _ => none

end FileTree

end EventLog
