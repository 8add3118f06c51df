/-!
# Instant — times and their stamps

A time of day on a date, without a zone.  A leap second is kept as second 59 with more than a
second's worth of nanoseconds, and is stamped as second 60.
-/

namespace Reckoner

/-- A date and a time of day. -/
structure Instant where
  year       : Int
  month      : Nat
  day        : Nat
  hour       : Nat
  minute     : Nat
  second     : Nat
  nanosecond : Nat := 0
  deriving DecidableEq, Repr

namespace Instant

/-- A natural number with leading zeros up to a width. -/
def padded (width n : Nat) : String :=
  let digits := Nat.toDigits 10 n
  String.ofList (List.replicate (width - digits.length) '0' ++ digits)

/-- A year in at least four digits, with a sign unless it is from 0 to 9999. -/
def yearText (year : Int) : String :=
  if year < 0 then "-" ++ padded 4 year.natAbs
  else if year ≤ 9999 then padded 4 year.natAbs
  else "+" ++ padded 4 year.natAbs

/-- The second as it is shown. -/
def shownSecond (t : Instant) : Nat :=
  t.second + t.nanosecond / 1000000000

/-- The stamp of an instant, as in `2024-06-01 12:00:00`. -/
def stamp (t : Instant) : String :=
  yearText t.year ++ "-" ++ padded 2 t.month ++ "-" ++ padded 2 t.day ++ " " ++
    padded 2 t.hour ++ ":" ++ padded 2 t.minute ++ ":" ++ padded 2 t.shownSecond

end Instant

end Reckoner
