import EventLog.Line.Token
import EventLog.Names
import EventLog.Json
import EventLog.Text.Quoted

/-!
# Sinks

How a rendered line becomes the message to deliver.

A line becomes a text message by giving names to the class and the method of its
header: in the first token with the key `class_id` and in the first token with the
key `method_id` the number is replaced by the registered name.  Everything else,
spaces included, stays.

A line becomes a JSON object with a member for each token that has a key, in line
order; of members with one key the first counts.  Tokens without a key are joined
into a last member `msg`.
-/

namespace EventLog

namespace Line

/-! ## Text messages -/

/-- The registered name for a value that reads as a number of sixteen bits. -/
def resolve? (name? : Nat → Option String) (value : Text) : Option Text :=
  (Decimal.read? Decimal.max16 value).bind fun n => (name? n).map String.toList

/-- The value of a token whose text before its first equals sign is `key`. -/
def valueOf? (key token : Text) : Option Text :=
  match Text.splitAtFirst? '=' token with
  | some (k, value) => if k = key then some value else none
  | none => none

/-- Gives a name to the first token with the key, if its value has one. -/
def nameFirst (key : Text) (name? : Nat → Option String) : List Piece → List Piece
  | [] => []
  | p :: ps =>
    match valueOf? key p.token with
    | none => p :: nameFirst key name? ps
    | some value =>
      match resolve? name? value with
      | some name => { p with token := key ++ '=' :: name } :: ps
      | none => p :: ps

/-- The key of the header's class. -/
def classKey : Text := "class_id".toList

/-- The key of the header's method. -/
def methodKey : Text := "method_id".toList

/-- The text message of a line. -/
def textMessage (line : Text) : Text :=
  join (nameFirst methodKey methodName? (nameFirst classKey className? (pieces line)))

/-! ## JSON messages -/

/-- What a token says. -/
inductive Part where
  /-- A value under a key. -/
  | member (key : Text) (value : Json.Value)
  /-- A word of the free message. -/
  | word (token : Text)
  deriving DecidableEq, Repr

/-- A bare value is a number if it reads as one of sixty-four bits. -/
def bareValue (value : Text) : Json.Value :=
  match Decimal.read? Decimal.max64 value with
  | some n => .number n
  | none => .text value

/-- A value that starts with a quote is a string, any other is bare. -/
def fieldValue : Text → Json.Value
  | '"' :: quoted => .text (Quoted.decode quoted)
  | value => bareValue value

/-- What a token says: the tag in brackets and a token with a key before its first
equals sign are members, every other token is a word. -/
def part (token : Text) : Part :=
  match Text.unframe? "[tag=".toList ']' token with
  | some value => .member "tag".toList (bareValue value)
  | none =>
    match Text.splitAtFirst? '=' token with
    | some (key, value) => if key = [] then .word token else .member key (fieldValue value)
    | none => .word token

/-- The member that a part stands for, if any. -/
def Part.member? : Part → Option (Text × Json.Value)
  | member key value => some (key, value)
  | word _ => none

/-- The word that a part stands for, if any. -/
def Part.word? : Part → Option Text
  | member .. => none
  | word token => some token

/-- The member that joins the words, if there are any. -/
def messageMember (words : List Text) : List (Text × Json.Value) :=
  if words = [] then [] else [("msg".toList, .text ([' '].intercalate words))]

/-- All members that a line names, in order, repeated keys included. -/
def members (line : Text) : List (Text × Json.Value) :=
  let parts := (tokens line).map part
  parts.filterMap Part.member? ++ messageMember (parts.filterMap Part.word?)

/-- The object of a line. -/
def object (line : Text) : Json.Object :=
  Json.Object.ofMembers (members line)

/-- The JSON message of a line. -/
def jsonMessage (line : Text) : Text :=
  (object line).write

end Line

/-! ## Sinks -/

/-- The two forms of a message. -/
inductive Sink where
  /-- The line with names for its class and its method. -/
  | text
  | json
  deriving DecidableEq, Repr

namespace Sink

/-- The message of a line. -/
def format : Sink → Text → Text
  | text => Line.textMessage
  | json => Line.jsonMessage

/-- The name of a sink in diagnostic texts. -/
def typeName : Sink → String
  | text => "sherlog_pipeline::publisher::sink::TextSink"
  | json => "sherlog_pipeline::publisher::sink::JsonSink"

end Sink

end EventLog
