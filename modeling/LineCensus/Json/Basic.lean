import LineCensus.Keyed
import LineCensus.Numeric.Binary64

/-!
JSON values. The fields of an object have an order and different names: names that are numbers come
first, in increasing order, and the others follow in the order in which they were first given.
-/

namespace LineCensus

open Numeric

inductive Json where
  | null
  | bool (value : Bool)
  | number (value : Binary64)
  | string (text : String)
  | array (items : List Json)
  | object (fields : List (String × Json))
  deriving Inhabited

namespace Json

def ofNat (n : Nat) : Json := number (Binary64.ofNat n)

def lookup (name : String) (fields : List (String × Json)) : Option Json :=
  fields.lookup name

/-- The number that a field name is written as, if it is one that comes before all other names. -/
def indexOf? (name : String) : Option Nat :=
  match name.toList with
  | ['0'] => some 0
  | first :: rest =>
    if '1' ≤ first && first ≤ '9' && rest.all (fun c => '0' ≤ c && c ≤ '9') then
      let n := (first :: rest).foldl (fun total c => total * 10 + (c.toNat - '0'.toNat)) 0
      if n < 0xffffffff then some n else none
    else none
  | [] => none

/-- Whether a field may stand before another: numbers in increasing order, then everything else. -/
def fieldPrecedes (a b : String × Json) : Bool :=
  match indexOf? a.1, indexOf? b.1 with
  | some m, some n => m ≤ n
  | none, some _ => false
  | _, none => true

/-- The object with fields given in some order; of fields with one name the last counts. -/
def ofFields (fields : List (String × Json)) : Json :=
  object ((Keyed.ofList fields).mergeSort fieldPrecedes)

end Json

end LineCensus
