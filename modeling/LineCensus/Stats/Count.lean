import LineCensus.Numeric.Binary64

/-!
What lines and files are counted in. A scan counts in natural numbers; figures from elsewhere may be
any numbers, fractions and what is no number at all included.
-/

namespace LineCensus.Stats

open Numeric

class Count (α : Type) where
  zero : α
  add : α → α → α
  sub : α → α → α
  smaller : α → α → α
  /-- What a figure counts as: a natural number. -/
  clean : α → α
  /-- How two counts compare; two that cannot be compared count as equal. -/
  order : α → α → Ordering
  number : α → Binary64

instance : Count Nat where
  zero := 0
  add := (· + ·)
  sub := (· - ·)
  smaller := min
  clean := id
  order := compare
  number := Binary64.ofNat

/-- The natural number that a figure counts as: nothing unless it is finite and positive. -/
def cleanNumber (n : Binary64) : Binary64 :=
  if n.isFinite && Binary64.isLess (Binary64.zero false) n then Binary64.ofInt n.floorInt
  else Binary64.zero false

instance : Count Binary64 where
  zero := Binary64.zero false
  add := Binary64.add
  sub := Binary64.sub
  smaller a b := if Binary64.isLess b a then b else a
  clean := cleanNumber
  order a b := (Binary64.compare? a b).getD .eq
  number := id

variable {α : Type}

/-- The sum of some counts, added one after another to a first one. -/
def sumFrom [Count α] (first : α) (counts : List α) : α := counts.foldl Count.add first

def sum [Count α] (counts : List α) : α := sumFrom Count.zero counts

/-- How many of a hundred parts of a total a part is; none of an empty total. -/
def percentage (part total : Binary64) : Binary64 :=
  if total.isZero then Binary64.zero false else part / total * Binary64.ofNat 100

end LineCensus.Stats
