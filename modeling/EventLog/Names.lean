import EventLog.Text.Basic

/-!
# Names of classes and methods

Headers carry classes and methods by number.  The tables here give the names behind
the numbers; a number beyond a table has no name.
-/

namespace EventLog

/-! ## Classes -/

/-- The registered classes. -/
inductive ClassId where
  | server
  | handler
  | database
  deriving DecidableEq, Repr

namespace ClassId

/-- All classes, by number. -/
def all : List ClassId := [server, handler, database]

/-- The number of a class. -/
def number : ClassId → Nat
  | server => 0
  | handler => 1
  | database => 2

/-- The name of a class. -/
def name : ClassId → String
  | server => "Server"
  | handler => "Handler"
  | database => "Database"

/-- The class with a number. -/
def ofNumber? (n : Nat) : Option ClassId := all[n]?

/-- The class with number `n` is the one whose number is `n`. -/
theorem ofNumber?_eq_some_iff {n : Nat} {c : ClassId} : ofNumber? n = some c ↔ c.number = n := by
  rcases n with _ | _ | _ | n <;> cases c <;> simp [ofNumber?, all, number]

end ClassId

/-! ## Methods -/

/-- The registered methods. -/
inductive MethodId where
  | serverAddEvent
  | serverStart
  | serverStop
  | handlerRun
  | handlerAddEvent
  | handlerTerminateThreads
  | databaseQuery
  | databaseCommit
  deriving DecidableEq, Repr

namespace MethodId

/-- All methods, by number. -/
def all : List MethodId :=
  [serverAddEvent, serverStart, serverStop, handlerRun, handlerAddEvent, handlerTerminateThreads,
   databaseQuery, databaseCommit]

/-- The number of a method. -/
def number : MethodId → Nat
  | serverAddEvent => 0
  | serverStart => 1
  | serverStop => 2
  | handlerRun => 3
  | handlerAddEvent => 4
  | handlerTerminateThreads => 5
  | databaseQuery => 6
  | databaseCommit => 7

/-- The name of a method within its class. -/
def name : MethodId → String
  | serverAddEvent => "AddEvent"
  | serverStart => "Start"
  | serverStop => "Stop"
  | handlerRun => "Run"
  | handlerAddEvent => "addEvent"
  | handlerTerminateThreads => "terminateThreads"
  | databaseQuery => "Query"
  | databaseCommit => "Commit"

/-- The name of a method that tells it from the methods of other classes. -/
def fullName : MethodId → String
  | serverAddEvent => "ServerAddEvent"
  | serverStart => "ServerStart"
  | serverStop => "ServerStop"
  | handlerRun => "HandlerRun"
  | handlerAddEvent => "HandlerAddEvent"
  | handlerTerminateThreads => "HandlerTerminateThreads"
  | databaseQuery => "DatabaseQuery"
  | databaseCommit => "DatabaseCommit"

/-- The class of a method. -/
def owner : MethodId → ClassId
  | serverAddEvent | serverStart | serverStop => .server
  | handlerRun | handlerAddEvent | handlerTerminateThreads => .handler
  | databaseQuery | databaseCommit => .database

/-- The method with a number. -/
def ofNumber? (n : Nat) : Option MethodId := all[n]?

/-- The method with number `n` is the one whose number is `n`. -/
theorem ofNumber?_eq_some_iff {n : Nat} {m : MethodId} :
    ofNumber? n = some m ↔ m.number = n := by
  rcases n with _ | _ | _ | _ | _ | _ | _ | _ | n <;> cases m <;> simp [ofNumber?, all, number]

end MethodId

/-! ## Names by number -/

/-- The name of the class with a number. -/
def className? (n : Nat) : Option String :=
  (ClassId.ofNumber? n).map ClassId.name

/-- The name of the method with a number. -/
def methodName? (n : Nat) : Option String :=
  (MethodId.ofNumber? n).map MethodId.name

/-- The class of the method with a number. -/
def methodOwner? (n : Nat) : Option ClassId :=
  (MethodId.ofNumber? n).map MethodId.owner

end EventLog
