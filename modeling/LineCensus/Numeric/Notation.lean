import LineCensus.Numeric.Decimal

/-!
Numbers in writing: with as many digits as tell them apart, with one place after the point, and with
commas between groups of three digits.
-/

namespace LineCensus.Numeric

open Decimal (text)

def zeros (n : Nat) : List Char := List.replicate n '0'

/-- The digits of a decimal with the point after so many of them, or with zeros where there are none. -/
def positional (digits : List Char) (point : Int) : List Char :=
  if point ≤ 0 then ['0', '.'] ++ zeros point.natAbs ++ digits
  else
    let before := point.toNat
    if digits.length ≤ before then digits ++ zeros (before - digits.length)
    else digits.take before ++ '.' :: digits.drop before

/-- The digits of a decimal with the point after the first one, times a power of ten. -/
def scientific (digits : List Char) (exponent : Int) : List Char :=
  let mantissa := match digits with
    | first :: second :: rest => first :: '.' :: second :: rest
    | _ => digits
  mantissa ++ 'e' :: (if exponent < 0 then '-' else '+') :: text exponent.natAbs

/-- Numbers from a millionth up to this many digits before the point are written in full. -/
def positionalDigits : Int := 21

/-- How many zeros may follow the point before the first digit of a number written in full. -/
def positionalZeros : Int := 5

def sign (negative : Bool) : List Char := if negative then ['-'] else []

/-- A number with as few digits as tell it from all others. Zero has no sign. -/
def render (n : Binary64) : String :=
  match n with
  | .nan => "NaN"
  | .infinite negative => if negative then "-Infinity" else "Infinity"
  | .finite negative significand _ =>
    if significand == 0 then "0"
    else
      let decimal := Decimal.shortest n
      let digits := text decimal.digits
      let point : Int := digits.length + decimal.exponent
      String.ofList <| sign negative ++
        if -positionalZeros ≤ point ∧ point ≤ positionalDigits then positional digits point
        else scientific digits (point - 1)

/-- From this power of ten on, numbers are not written with places after the point. -/
def fixedBound : Nat := powerOfTen 21

/-- A number with one place after the point; a half of it goes away from zero. -/
def renderTenths (n : Binary64) : String :=
  match n with
  | .finite negative significand _ =>
    let (top, bottom) := n.magnitude
    if fixedBound * bottom ≤ top then render n
    else
      let tenths := (20 * top + bottom) / (2 * bottom)
      String.ofList <| sign (negative && significand != 0) ++ text (tenths / 10)
        ++ '.' :: text (tenths % 10)
  | _ => render n

/-- Digits in reverse with a comma after every third, unless it is the last. -/
def groupReversed : List Char → List Char
  | a :: b :: c :: d :: rest => a :: b :: c :: ',' :: groupReversed (d :: rest)
  | digits => digits

def grouped (digits : List Char) : List Char := (groupReversed digits.reverse).reverse

def groupedPlaces : Nat := 3

/-- A decimal in thousandths; a half of one goes up. -/
def Decimal.thousandths (decimal : Decimal) : Nat :=
  let exponent := decimal.exponent + groupedPlaces
  if 0 ≤ exponent then decimal.digits * powerOfTen exponent.toNat
  else
    let unit := powerOfTen exponent.natAbs
    (2 * decimal.digits + unit) / (2 * unit)

/-- The places after the point of a number in thousandths, without zeros at their end. -/
def placesOf (thousandths : Nat) : List Char :=
  let places := (text (1000 + thousandths % 1000)).drop 1
  (places.reverse.dropWhile (· == '0')).reverse

/-- A number for readers: commas between groups of three digits, and at most three places after the
point, to which its shortest decimal is rounded. Negative zero keeps its sign. -/
def renderGrouped (n : Binary64) : String :=
  match n with
  | .nan => "NaN"
  | .infinite negative => String.ofList (sign negative ++ ['∞'])
  | .finite negative _ _ =>
    let thousandths := (Decimal.shortest n).thousandths
    let places := placesOf thousandths
    String.ofList <| sign negative ++ grouped (text (thousandths / 1000))
      ++ if places.isEmpty then [] else '.' :: places

end LineCensus.Numeric
