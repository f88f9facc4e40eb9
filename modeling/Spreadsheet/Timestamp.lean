/-!
# Timestamps

A date and a time of day, as documents write them.

The parts are given with the precision of microseconds and written with that of
milliseconds, the rest being cut off. A time that has an offset from universal
time is written with it, and with a `Z` where the offset is zero.

## Main definitions

* `Timestamp`: A date and a time of day.
* `Timestamp.text`: The text of a timestamp.
-/

namespace Spreadsheet

/-- A date and a time of day. -/
structure Timestamp where
  year : Nat
  /-- The month, from one. -/
  month : Nat
  /-- The day of the month, from one. -/
  day : Nat
  hour : Nat
  minute : Nat
  second : Nat
  /-- The part of the second, in microseconds. -/
  microsecond : Nat
  /-- The offset from universal time in minutes, if it is known. -/
  offset : Option Int
deriving DecidableEq, Repr

namespace Timestamp

/-- A number with at least `width` digits. -/
def padded (width n : Nat) : String :=
  let digits := Nat.toDigits 10 n
  String.ofList (List.replicate (width - digits.length) '0' ++ digits)

/-- The text of an offset in minutes: hours and minutes with a sign, or `Z`. -/
def offsetText (offset : Int) : String :=
  if offset = 0 then "Z"
  else
    let size := offset.natAbs
    (if offset < 0 then "-" else "+") ++ padded 2 (size / 60) ++ ":" ++ padded 2 (size % 60)

/-- The text of a timestamp: the date, a `T`, the time and the offset. -/
def text (t : Timestamp) : String :=
  padded 4 t.year ++ "-" ++ padded 2 t.month ++ "-" ++ padded 2 t.day ++ "T"
    ++ padded 2 t.hour ++ ":" ++ padded 2 t.minute ++ ":" ++ padded 2 t.second
    ++ "." ++ padded 3 (t.microsecond / 1000)
    ++ (t.offset.map offsetText).getD ""

end Timestamp

end Spreadsheet
