import EventLog.Text.Basic

/-!
# Decimal numbers and durations

Unsigned numbers are written with the fewest ASCII digits.  The reader takes an
optional plus sign and at least one ASCII digit, leading zeros included, and
refuses a value above its bound.

A duration is a number of nanoseconds.  It is shown in seconds, milliseconds,
microseconds or nanoseconds, in the largest unit that it reaches, exactly and without
trailing zeros of the fraction.
-/

namespace EventLog

/-! ## Decimal numbers -/

namespace Decimal

/-- The digits of a number. -/
def write (n : Nat) : Text :=
  Nat.toDigits 10 n

/-- The value of a run of ASCII digits that continues the number `value`; `none`
if another character stands in it. -/
def continue? (value : Nat) : Text → Option Nat
  | [] => some value
  | c :: s => if c.isDigit then continue? (value * 10 + (c.toNat - '0'.toNat)) s else none

/-- The value of a run of at least one ASCII digit. -/
def digits? : Text → Option Nat
  | [] => none
  | s => continue? 0 s

/-- Reads an unsigned number that is at most `bound`. -/
def read? (bound : Nat) (s : Text) : Option Nat :=
  let digits := match s with
    | '+' :: rest => rest
    | _ => s
  (digits? digits).filter (· ≤ bound)

/-- The largest value of sixteen bits. -/
def max16 : Nat := UInt16.size - 1

/-- The largest value of sixty-four bits. -/
def max64 : Nat := UInt64.size - 1

end Decimal

/-! ## Durations -/

namespace Duration

/-- A microsecond, in nanoseconds. -/
def microsecond : Nat := 1000

/-- A millisecond, in nanoseconds. -/
def millisecond : Nat := 1000 * microsecond

/-- A second, in nanoseconds. -/
def second : Nat := 1000 * millisecond

/-- The last `places` digits of a number, with leading zeros. -/
def lastDigits : Nat → Nat → Text
  | 0, _ => []
  | places + 1, n => lastDigits places (n / 10) ++ [Nat.digitChar (n % 10)]

/-- Without the zeros at the end. -/
def dropTrailingZeros (s : Text) : Text :=
  (s.reverse.dropWhile fun c => c = '0').reverse

/-- A number shifted by `places` decimal places. -/
def writeShifted (n places : Nat) : Text :=
  let fraction := dropTrailingZeros (lastDigits places n)
  Decimal.write (n / Nat.pow 10 places) ++ if fraction = [] then [] else '.' :: fraction

/-- The shown form of a number of nanoseconds. -/
def write (nanos : Nat) : Text :=
  if nanos < microsecond then Decimal.write nanos ++ "ns".toList
  else if nanos < millisecond then writeShifted nanos 3 ++ "µs".toList
  else if nanos < second then writeShifted nanos 6 ++ "ms".toList
  else writeShifted nanos 9 ++ "s".toList

end Duration

end EventLog
