import LineCensus.Numeric.Binary64

/-!
Decimals, and the shortest decimal for a number: of all decimals that are nearer to the number than
to any other, the ones with the fewest digits, and of those the one nearest to it.
-/

namespace LineCensus.Numeric

/-- Digits times a power of ten. The last digit is not zero, unless there is no other. -/
structure Decimal where
  digits : Nat
  exponent : Int
  deriving DecidableEq, Repr

namespace Decimal

def text (n : Nat) : List Char := Nat.toDigits 10 n

def trimmed : Nat → Nat → Int → Decimal
  | 0, digits, exponent => ⟨digits, exponent⟩
  | bound + 1, digits, exponent =>
    if digits != 0 && digits % 10 == 0 then trimmed bound (digits / 10) (exponent + 1)
    else ⟨digits, exponent⟩

def make (digits : Nat) (exponent : Int) : Decimal := trimmed (text digits).length digits exponent

/-- How many digits a positive quotient has before the point; where it has none, the zeros that
follow the point count as missing ones. -/
def magnitude (numerator denominator : Nat) : Nat → Int
  | 0 => 0
  | bound + 1 =>
    if denominator ≤ numerator then ((text (numerator / denominator)).length : Int)
    else magnitude (numerator * 10) denominator bound - 1

/-- How many zeros can follow the point of a number before its first digit. -/
def zeroBound : Nat := 400

/-- The decimals that are nearer to a number than to any other: the lower and the upper end of the
interval, and whether the ends belong to it. All are given over a common denominator. -/
structure Interval where
  low : Nat
  value : Nat
  high : Nat
  denominator : Nat
  closed : Bool

def Interval.of (significand : Nat) (exponent : Int) : Interval :=
  let (scale, denominator) :=
    if exponent < 0 then (1, 1 <<< exponent.natAbs) else (1 <<< exponent.toNat, 1)
  let narrow := significand == 1 <<< 52 && Binary64.minExponent < exponent
  { low := (4 * significand - (if narrow then 1 else 2)) * scale
    value := 4 * significand * scale
    high := (4 * significand + 2) * scale
    denominator := 4 * denominator
    closed := significand % 2 == 0 }

def Interval.contains (interval : Interval) (digits : Nat) (exponent : Int) : Bool :=
  let (top, bottom) :=
    if exponent < 0 then (digits, powerOfTen exponent.natAbs) else (digits * powerOfTen exponent.toNat, 1)
  let position := top * interval.denominator
  let low := interval.low * bottom
  let high := interval.high * bottom
  if interval.closed then low ≤ position && position ≤ high else low < position && position < high

/-- Of the two decimals with a power of ten around the value of an interval, the nearer one that lies
in it. If both are equally near, the even one is taken. -/
def Interval.onGrid (interval : Interval) (exponent : Int) : Option Nat :=
  let (top, bottom) :=
    if exponent < 0 then (interval.value * powerOfTen exponent.natAbs, interval.denominator)
    else (interval.value, interval.denominator * powerOfTen exponent.toNat)
  let below := top / bottom
  let nearest := Binary64.roundedQuotient top bottom
  let other := if nearest == below then below + 1 else below
  if interval.contains nearest exponent then some nearest
  else if interval.contains other exponent then some other
  else none

/-- The shortest decimal of an interval that has at least the given number of digits, of which it
tries as many as `bound` says. -/
def shortestFrom (interval : Interval) (size : Int) : Nat → Nat → Decimal
  | 0, _ => ⟨0, 0⟩
  | bound + 1, length =>
    let exponent := size - length
    match interval.onGrid exponent with
    | some digits => make digits exponent
    | none => shortestFrom interval size bound (length + 1)

/-- With so many digits every number can be told from all others. -/
def maxDigits : Nat := 17

def shortest : Binary64 → Decimal
  | .finite _ significand exponent =>
    if significand == 0 then ⟨0, 0⟩
    else
      let interval := Interval.of significand exponent
      let size := magnitude interval.value interval.denominator zeroBound
      shortestFrom interval size maxDigits 1
  | _ => ⟨0, 0⟩

end Decimal

end LineCensus.Numeric
