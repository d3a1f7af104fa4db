import LineCensus.Text.Units

/-!
How far two words are apart: the number of units to put in, take out or replace, and of neighbours to
exchange, until one word is the other. No unit is touched twice.
-/

namespace LineCensus.Text

/-- Distances of one part of a word, of growing length, from the parts of another. -/
abbrev Row := Array Nat

/-- The row of a part that is longer by the unit `unit`, which is its `count`-th. `row` is that of the
part before, which ends in `last`, and `older` that of the part before that one. -/
def nextRow (word : Array Nat) (row older : Row) (last : Option Nat) (unit count : Nat) : Row :=
  (List.range word.size).foldl
    (fun next column =>
      let other := word.getD column 0
      let cost := if unit == other then 0 else 1
      let plain := min (min (row.getD (column + 1) 0 + 1) (next.getD column 0 + 1))
        (row.getD column 0 + cost)
      let exchanged :=
        0 < column && some other == last && word.getD (column - 1) 0 == unit
      next.push (if exchanged then min plain (older.getD (column - 1) 0 + 1) else plain))
    #[count]

def lastRow (word : Array Nat) (row older : Row) (last : Option Nat) (count : Nat) :
    List Nat → Row
  | [] => row
  | unit :: rest =>
    lastRow word (nextRow word row older last unit (count + 1)) row (some unit) (count + 1) rest

def distance (a b : List Nat) : Nat :=
  let word := b.toArray
  (lastRow word (Array.range (word.size + 1)) #[] none 0 a).getD word.size 0

def distanceBound : Nat := 3

/-- How far two words are apart if their lengths are close, and as much as can be otherwise. -/
def boundedDistance (a b : List Nat) : Nat :=
  if distanceBound < max a.length b.length - min a.length b.length then max a.length b.length
  else distance a b

/-- Whether more than two fifths of the longer of two words agree, which are so far apart. -/
def isAlike (a b : List Nat) (distance : Nat) : Bool :=
  let size := max a.length b.length
  2 * size < 5 * (size - distance)

/-- The candidates that are closest to a word among those that are like it. -/
def closest (word : String) (candidates : List String) : List String :=
  let rated := candidates.filterMap fun candidate =>
    let distance := boundedDistance (units word) (units candidate)
    if distance ≤ distanceBound && isAlike (units word) (units candidate) distance then
      some (distance, candidate)
    else none
  let best := (rated.map Prod.fst).foldl min distanceBound
  rated.filterMap fun (distance, candidate) =>
    if distance == best then some candidate else none

end LineCensus.Text
