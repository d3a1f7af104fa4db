/-!
The text of a script as an array of characters, and runs in it. Every position counts characters
from the start of the text; one past the last character is the end.
-/

namespace LineCensus.Script

structure Source where
  chars : Array Char

namespace Source

def ofString (text : String) : Source := ⟨text.toList.toArray⟩

def size (source : Source) : Nat := source.chars.size

/-- The character at a position, and NUL from the end on. -/
def char (source : Source) (position : Nat) : Char := source.chars.getD position '\x00'

def slice (source : Source) (start stop : Nat) : String :=
  String.ofList (source.chars.extract start stop).toList

/-- Where a run of characters of one class that begins at `position` ends. -/
def skipWhile (source : Source) (inRun : Char → Bool) (position : Nat) : Nat :=
  if position < source.size then
    if inRun (source.char position) then source.skipWhile inRun (position + 1) else position
  else position
termination_by source.size - position

def startsAt (source : Source) (position : Nat) (word : List Char) : Bool :=
  word.zipIdx.all fun (c, offset) =>
    position + offset < source.size && source.char (position + offset) == c

theorem le_skip_while (source : Source) (inRun : Char → Bool) (position : Nat) :
    position ≤ source.skipWhile inRun position := by
  fun_induction skipWhile source inRun position with
  | case1 position _ _ ih => omega
  | case2 => exact Nat.le_refl _
  | case3 => exact Nat.le_refl _

end Source

end LineCensus.Script
