import EventLog.Text.Decimal
import EventLog.Text.Printable

/-!
# Texts between quotes

A text stands in a line as it is, unless it would not read back as one token of
the same meaning: then it is written in double quotes, with a backslash before a
quote or a backslash, and with newline, carriage return and tab as `\n`, `\r` and
`\t`.

A diagnostic text shows a string as a literal: always between double quotes, on one
line, and with every character that would not be seen as itself written by its
code.
-/

namespace EventLog

/-! ## Field texts -/

namespace Quoted

/-- A text is quoted if it reads as a number of sixty-four bits, or if a blank, a
quote or a backslash stands in it. -/
def needsQuotes (s : Text) : Bool :=
  (Decimal.read? Decimal.max64 s).isSome ||
    s.any fun c => Text.isBlank c || c = '"' || c = '\\'

/-- One character between quotes. -/
def escape (c : Char) : Text :=
  if c = '"' then ['\\', '"']
  else if c = '\\' then ['\\', '\\']
  else if c = '\n' then ['\\', 'n']
  else if c = '\r' then ['\\', 'r']
  else if c = '\t' then ['\\', 't']
  else [c]

/-- The written form of a text. -/
def encode (s : Text) : Text :=
  if needsQuotes s then '"' :: s.flatMap escape ++ ['"'] else s

/-- The character that a backslash in front of `c` stands for. -/
def unescape (c : Char) : Char :=
  if c = 'n' then '\n' else if c = 'r' then '\r' else if c = 't' then '\t' else c

/-- The text behind an opening quote: up to the first quote that no backslash
precedes, or to the end.  A backslash at the very end is left out. -/
def decode : Text → Text
  | [] => []
  | '"' :: _ => []
  | '\\' :: c :: s => unescape c :: decode s
  | ['\\'] => []
  | c :: s => c :: decode s

end Quoted

/-! ## Literals -/

namespace Literal

/-- The code of a character in lower-case hexadecimal digits. -/
def hexCode (c : Char) : Text :=
  Nat.toDigits 16 c.toNat

/-- One character between the quotes. -/
def escape (c : Char) : Text :=
  if c = '\x00' then ['\\', '0']
  else if c = '\t' then ['\\', 't']
  else if c = '\n' then ['\\', 'n']
  else if c = '\r' then ['\\', 'r']
  else if c = '"' then ['\\', '"']
  else if c = '\\' then ['\\', '\\']
  else if Text.isExtending c || !Text.isPrintable c then
    ['\\', 'u', '\x7b'] ++ hexCode c ++ ['\x7d']
  else [c]

/-- The literal of a text. -/
def write (s : Text) : Text :=
  '"' :: s.flatMap escape ++ ['"']

/-- The literal of a string. -/
def ofString (s : String) : String :=
  String.ofList (write s.toList)

end Literal

end EventLog
