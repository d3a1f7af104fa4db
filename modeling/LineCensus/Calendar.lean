import LineCensus.Numeric.Decimal

/-!
Points in time, counted in milliseconds from the start of 1970, and how they are written as a date
and a time of day.
-/

namespace LineCensus

open Numeric

/-- A point in time that has a date. -/
structure Instant where
  milliseconds : Int
  deriving DecidableEq, Repr

namespace Instant

/-- The furthest point in time from the start of 1970 that has a date. -/
def bound : Nat := 8640000000000000

/-- A point in time from a number of milliseconds, whose fraction does not count. -/
def ofNumber? (n : Binary64) : Option Instant :=
  if n.isFinite && n.truncated.natAbs ≤ bound then some ⟨n.truncated⟩ else none

structure Day where
  year : Int
  month : Nat
  day : Nat
  deriving DecidableEq, Repr

/-- The day with a number, counted from the first day of 1970. Years are counted from March on, so
that a leap day ends one; 400 of them have 146097 days. -/
def Day.ofNumber (number : Int) : Day :=
  let shifted := number + 719468
  let era := Int.fdiv shifted 146097
  let dayOfEra := (shifted - era * 146097).toNat
  let yearOfEra :=
    (dayOfEra - dayOfEra / 1460 + dayOfEra / 36524 - dayOfEra / 146096) / 365
  let dayOfYear := dayOfEra - (365 * yearOfEra + yearOfEra / 4 - yearOfEra / 100)
  let fromMarch := (5 * dayOfYear + 2) / 153
  let day := dayOfYear - (153 * fromMarch + 2) / 5 + 1
  let month := if fromMarch < 10 then fromMarch + 3 else fromMarch - 9
  let year : Int := yearOfEra + era * 400
  { year := if month ≤ 2 then year + 1 else year, month, day }

def padded (size n : Nat) : List Char :=
  let digits := Decimal.text n
  List.replicate (size - digits.length) '0' ++ digits

/-- A year in writing: four digits, or six with a sign outside of four. -/
def yearText (year : Int) : List Char :=
  if 0 ≤ year ∧ year ≤ 9999 then padded 4 year.natAbs
  else (if year < 0 then '-' else '+') :: padded 6 year.natAbs

def dayLength : Nat := 86400000

def render (instant : Instant) : String :=
  let number := Int.fdiv instant.milliseconds dayLength
  let rest := (instant.milliseconds - number * dayLength).toNat
  let day := Day.ofNumber number
  String.ofList <|
    yearText day.year ++ '-' :: padded 2 day.month ++ '-' :: padded 2 day.day
      ++ 'T' :: padded 2 (rest / 3600000) ++ ':' :: padded 2 (rest / 60000 % 60)
      ++ ':' :: padded 2 (rest / 1000 % 60) ++ '.' :: padded 3 (rest % 1000) ++ ['Z']

end Instant

end LineCensus
