/-!
Numbers with 53 significant bits. Every operation is carried out exactly and rounded once, to the
nearest number and to the one with an even significand where two are equally near. A number that is
too large becomes infinite, and what has no value is not a number.
-/

namespace LineCensus.Numeric

def powerOfTen : Nat → Nat
  | 0 => 1
  | exponent + 1 => 10 * powerOfTen exponent

/-- A number with 53 significant bits: its value is the significand times a power of two. -/
inductive Binary64 where
  | nan
  | infinite (negative : Bool)
  | finite (negative : Bool) (significand : Nat) (exponent : Int)
  deriving DecidableEq, Repr, Inhabited

namespace Binary64

/-! ### Rounding -/

def minExponent : Int := -1074

def maxExponent : Int := 971

def significandBound : Nat := 1 <<< 53

/-- The quotient rounded to the nearest integer, and to an even one if two are equally near. -/
def roundedQuotient (numerator denominator : Nat) : Nat :=
  let quotient := numerator / denominator
  let twice := 2 * (numerator % denominator)
  if denominator < twice then quotient + 1
  else if twice == denominator && quotient % 2 == 1 then quotient + 1
  else quotient

/-- A quotient divided by a power of two, as numerator and denominator. -/
def scaled (numerator denominator : Nat) (exponent : Int) : Nat × Nat :=
  if exponent < 0 then (numerator <<< exponent.natAbs, denominator)
  else (numerator, denominator <<< exponent.toNat)

/-- The exponent with which a quotient has a significand of 53 bits, or the smallest exponent. -/
def exponentOf (numerator denominator : Nat) : Int :=
  let guess : Int := (Nat.log2 numerator : Int) - (Nat.log2 denominator : Int) - 52
  let (top, bottom) := scaled numerator denominator guess
  let exponent := if top < bottom <<< 52 then guess - 1 else guess
  max exponent minExponent

def zero (negative : Bool) : Binary64 := finite negative 0 minExponent

def ofRatio (negative : Bool) (numerator denominator : Nat) : Binary64 :=
  if numerator == 0 then zero negative
  else
    let exponent := exponentOf numerator denominator
    let (top, bottom) := scaled numerator denominator exponent
    let significand := roundedQuotient top bottom
    let (significand, exponent) :=
      if significand == significandBound then (significand / 2, exponent + 1)
      else (significand, exponent)
    if maxExponent < exponent then infinite negative else finite negative significand exponent

def ofNat (n : Nat) : Binary64 := ofRatio false n 1

def ofInt (n : Int) : Binary64 := ofRatio (decide (n < 0)) n.natAbs 1

/-- No number but an infinite one is as large as this power of ten. -/
def maxMagnitude : Int := 310

/-- No number but zero is as small as this power of ten. -/
def minMagnitude : Int := -330

def ofDecimal (negative : Bool) (digits : Nat) (exponent : Int) : Binary64 :=
  let magnitude : Int := (Nat.toDigits 10 digits).length + exponent
  if digits == 0 || magnitude < minMagnitude then zero negative
  else if maxMagnitude < magnitude then infinite negative
  else if exponent < 0 then ofRatio negative digits (powerOfTen exponent.natAbs)
  else ofRatio negative (digits * powerOfTen exponent.toNat) 1

/-! ### Parts -/

def isFinite : Binary64 → Bool
  | finite _ _ _ => true
  | _ => false

def isNan : Binary64 → Bool
  | nan => true
  | _ => false

def isZero : Binary64 → Bool
  | finite _ 0 _ => true
  | _ => false

/-- The sign; what is no number has none. -/
def isNegative : Binary64 → Bool
  | finite negative _ _ => negative
  | infinite negative => negative
  | nan => false

def magnitude : Binary64 → Nat × Nat
  | finite _ significand exponent =>
    if exponent < 0 then (significand, 1 <<< exponent.natAbs)
    else (significand <<< exponent.toNat, 1)
  | _ => (0, 1)

/-- The value of a finite number in units of the smallest positive one. -/
def inLeastUnits : Binary64 → Int
  | finite negative significand exponent =>
    let size : Int := (significand <<< (exponent - minExponent).toNat : Nat)
    if negative then -size else size
  | _ => 0

def ofLeastUnits (units : Int) : Binary64 :=
  ofRatio (decide (units < 0)) units.natAbs (1 <<< minExponent.natAbs)

/-! ### Arithmetic -/

def neg : Binary64 → Binary64
  | nan => nan
  | infinite negative => infinite (!negative)
  | finite negative significand exponent => finite (!negative) significand exponent

/-- The sum; a sum of nothing is negative only if both parts are. -/
def add (a b : Binary64) : Binary64 :=
  match a, b with
  | nan, _ | _, nan => nan
  | infinite s, infinite t => if s == t then infinite s else nan
  | infinite s, _ => infinite s
  | _, infinite t => infinite t
  | finite s _ _, finite t _ _ =>
    let sum := a.inLeastUnits + b.inLeastUnits
    if sum == 0 then zero (s && t) else ofLeastUnits sum

def sub (a b : Binary64) : Binary64 := add a (neg b)

def mul (a b : Binary64) : Binary64 :=
  let sign := a.isNegative != b.isNegative
  match a, b with
  | nan, _ | _, nan => nan
  | infinite _, _ => if b.isZero then nan else infinite sign
  | _, infinite _ => if a.isZero then nan else infinite sign
  | finite _ _ _, finite _ _ _ =>
    ofRatio sign (a.magnitude.1 * b.magnitude.1) (a.magnitude.2 * b.magnitude.2)

def div (a b : Binary64) : Binary64 :=
  let sign := a.isNegative != b.isNegative
  match a, b with
  | nan, _ | _, nan => nan
  | infinite _, infinite _ => nan
  | infinite _, _ => infinite sign
  | _, infinite _ => zero sign
  | finite _ _ _, finite _ _ _ =>
    if b.isZero then if a.isZero then nan else infinite sign
    else ofRatio sign (a.magnitude.1 * b.magnitude.2) (a.magnitude.2 * b.magnitude.1)

/-! ### Order -/

/-- How two numbers compare; not at all if one of them is no number. -/
def compare? (a b : Binary64) : Option Ordering :=
  match a, b with
  | nan, _ | _, nan => none
  | infinite s, infinite t =>
    some (if s == t then .eq else if s then .lt else .gt)
  | infinite s, _ => some (if s then .lt else .gt)
  | _, infinite t => some (if t then .gt else .lt)
  | finite _ _ _, finite _ _ _ => some (compare a.inLeastUnits b.inLeastUnits)

def equals (a b : Binary64) : Bool := compare? a b == some .eq

def isLess (a b : Binary64) : Bool := compare? a b == some .lt

/-! ### Integers -/

def floorInt (a : Binary64) : Int :=
  let (top, bottom) := a.magnitude
  let size : Int := top
  Int.fdiv (if a.isNegative then -size else size) bottom

/-- The integer nearest to a finite number, and the larger one if two are equally near. -/
def nearestInt (a : Binary64) : Int :=
  let (top, bottom) := a.magnitude
  let twice : Int := 2 * top
  Int.fdiv ((if a.isNegative then -twice else twice) + bottom) (2 * bottom)

/-- The nearest integer as a number; what is not finite stays as it is. -/
def nearest (a : Binary64) : Binary64 := if a.isFinite then ofInt a.nearestInt else a

def truncated (a : Binary64) : Int :=
  let (top, bottom) := a.magnitude
  let size : Int := (top / bottom : Nat)
  if a.isNegative then -size else size

instance : Add Binary64 := ⟨add⟩

instance : Sub Binary64 := ⟨sub⟩

instance : Mul Binary64 := ⟨mul⟩

instance : Div Binary64 := ⟨div⟩

end Binary64

end LineCensus.Numeric
