import LineCensus.Json.Basic

/-!
Reading JSON. A text is either the writing of one value, with white space around it and between its
parts, or nothing.
-/

namespace LineCensus.Json

open Numeric

def isSpace (c : Char) : Bool := c == ' ' || c == '\t' || c == '\n' || c == '\r'

def skipSpace (chars : List Char) : List Char := chars.dropWhile isSpace

def isDigit (c : Char) : Bool := '0' ≤ c && c ≤ '9'

def digitsValue (digits : List Char) : Nat :=
  digits.foldl (fun total c => total * 10 + (c.toNat - '0'.toNat)) 0

/-! ### Numbers -/

def readDigits (chars : List Char) : Option (List Char × List Char) :=
  let digits := chars.takeWhile isDigit
  if digits.isEmpty then none else some (digits, chars.dropWhile isDigit)

/-- The digits before the point: no zero opens a longer run. -/
def readWhole (chars : List Char) : Option (List Char × List Char) :=
  match chars with
  | '0' :: rest => some (['0'], rest)
  | _ => readDigits chars

def readPlaces (chars : List Char) : Option (List Char × List Char) :=
  match chars with
  | '.' :: rest => readDigits rest
  | _ => some ([], chars)

def readExponent (chars : List Char) : Option (Int × List Char) :=
  let signed (sign : Int) (rest : List Char) : Option (Int × List Char) :=
    (readDigits rest).map fun (digits, rest) => (sign * digitsValue digits, rest)
  let afterMark (rest : List Char) : Option (Int × List Char) :=
    match rest with
    | '+' :: rest => signed 1 rest
    | '-' :: rest => signed (-1) rest
    | _ => signed 1 rest
  match chars with
  | 'e' :: rest => afterMark rest
  | 'E' :: rest => afterMark rest
  | _ => some (0, chars)

def readNumber (chars : List Char) : Option (Json × List Char) := do
  let (negative, chars) := match chars with
    | '-' :: rest => (true, rest)
    | _ => (false, chars)
  let (whole, chars) ← readWhole chars
  let (places, chars) ← readPlaces chars
  let (exponent, chars) ← readExponent chars
  let value := Binary64.ofDecimal negative (digitsValue (whole ++ places))
    (exponent - places.length)
  return (number value, chars)

/-! ### Texts -/

def hexValue (c : Char) : Option Nat :=
  if isDigit c then some (c.toNat - '0'.toNat)
  else if 'a' ≤ c && c ≤ 'f' then some (c.toNat - 'a'.toNat + 10)
  else if 'A' ≤ c && c ≤ 'F' then some (c.toNat - 'A'.toNat + 10)
  else none

def readUnit : List Char → Option (Nat × List Char)
  | a :: b :: c :: d :: rest => do
    return ((((← hexValue a) * 16 + (← hexValue b)) * 16 + (← hexValue c)) * 16 + (← hexValue d),
      rest)
  | _ => none

def isLeadUnit (unit : Nat) : Bool := 0xd800 ≤ unit && unit < 0xdc00

def isTrailUnit (unit : Nat) : Bool := 0xdc00 ≤ unit && unit < 0xe000

def loneUnit : Char := '\ufffd'

/-- The character that an escape with a unit spells; two escapes spell one character where the units
belong together. -/
def readUnitEscape (chars : List Char) : Option (Char × List Char) := do
  let (unit, rest) ← readUnit chars
  if isLeadUnit unit then
    match rest with
    | '\\' :: 'u' :: more =>
      let (second, after) ← readUnit more
      if isTrailUnit second then
        return (Char.ofNat (0x10000 + (unit - 0xd800) * 0x400 + (second - 0xdc00)), after)
      else return (loneUnit, rest)
    | _ => return (loneUnit, rest)
  else if isTrailUnit unit then return (loneUnit, rest)
  else return (Char.ofNat unit, rest)

def readEscape : List Char → Option (Char × List Char)
  | '"' :: rest => some ('"', rest)
  | '\\' :: rest => some ('\\', rest)
  | '/' :: rest => some ('/', rest)
  | 'b' :: rest => some ('\x08', rest)
  | 'f' :: rest => some ('\x0c', rest)
  | 'n' :: rest => some ('\n', rest)
  | 'r' :: rest => some ('\r', rest)
  | 't' :: rest => some ('\t', rest)
  | 'u' :: rest => readUnitEscape rest
  | _ => none

/-- The text up to the closing quote, read in at most so many steps; `done` is what has been read of
it, in reverse. -/
def readTextFrom : Nat → List Char → List Char → Option (String × List Char)
  | 0, _, _ => none
  | _ + 1, _, [] => none
  | bound + 1, done, c :: rest =>
    if c == '"' then some (String.ofList done.reverse, rest)
    else if c == '\\' then
      match readEscape rest with
      | some (escaped, rest) => readTextFrom bound (escaped :: done) rest
      | none => none
    else if c.toNat < 0x20 then none
    else readTextFrom bound (c :: done) rest

/-! ### Values -/

def afterWord (word : String) (chars : List Char) : Option (List Char) :=
  if word.toList.isPrefixOf chars then some (chars.drop word.toList.length) else none

mutual

/-- A value and what follows it, read in at most so many steps. -/
def readValue : Nat → List Char → Option (Json × List Char)
  | 0, _ => none
  | bound + 1, chars =>
    match skipSpace chars with
    | '"' :: rest => (readTextFrom bound [] rest).map fun (text, rest) => (string text, rest)
    | '[' :: rest =>
      match skipSpace rest with
      | ']' :: rest => some (array [], rest)
      | _ => readItems bound [] rest
    | '{' :: rest =>
      match skipSpace rest with
      | '}' :: rest => some (object [], rest)
      | _ => readFields bound [] rest
    | 't' :: rest => (afterWord "rue" rest).map fun rest => (bool true, rest)
    | 'f' :: rest => (afterWord "alse" rest).map fun rest => (bool false, rest)
    | 'n' :: rest => (afterWord "ull" rest).map fun rest => (null, rest)
    | chars => readNumber chars

/-- The items of an array, at least one; those in `done` have been read, the last one first. -/
def readItems : Nat → List Json → List Char → Option (Json × List Char)
  | 0, _, _ => none
  | bound + 1, done, chars => do
    let (item, rest) ← readValue bound chars
    match skipSpace rest with
    | ',' :: rest => readItems bound (item :: done) rest
    | ']' :: rest => return (array (item :: done).reverse, rest)
    | _ => none

def readFields : Nat → List (String × Json) → List Char → Option (Json × List Char)
  | 0, _, _ => none
  | bound + 1, done, chars => do
    match skipSpace chars with
    | '"' :: rest =>
      let (name, rest) ← readTextFrom bound [] rest
      match skipSpace rest with
      | ':' :: rest =>
        let (value, rest) ← readValue bound rest
        match skipSpace rest with
        | ',' :: rest => readFields bound ((name, value) :: done) rest
        | '}' :: rest => return (ofFields ((name, value) :: done).reverse, rest)
        | _ => none
      | _ => none
    | _ => none

end

def parse? (text : String) : Option Json := do
  let chars := text.toList
  let (value, rest) ← readValue (2 * chars.length + 2) chars
  if (skipSpace rest).isEmpty then return value else none

end LineCensus.Json
