/-!
Text measured and ordered by 16-bit units. A character beyond the first 65536 takes two units, the
first of which is smaller than the single unit of some characters before it; so the order by units
is not the order by characters.
-/

namespace LineCensus.Text

def unitsOf (c : Char) : List Nat :=
  if c.toNat < 0x10000 then [c.toNat]
  else
    let offset := c.toNat - 0x10000
    [0xd800 + offset / 0x400, 0xdc00 + offset % 0x400]

def units (text : String) : List Nat := text.toList.flatMap unitsOf

def width (c : Char) : Nat := if c.toNat < 0x10000 then 1 else 2

def widthOf (chars : List Char) : Nat := chars.foldl (fun total c => total + width c) 0

def length (text : String) : Nat := widthOf text.toList

/-- A text with blanks behind it, so that it has at least the given length. -/
def padEnd (text : String) (size : Nat) : String :=
  text ++ String.ofList (List.replicate (size - length text) ' ')

def isBefore (a b : String) : Bool := decide (units a < units b)

def sort (texts : List String) : List String := texts.mergeSort fun a b => !isBefore b a

/-- A list without the members that occur in it before. -/
def distinct {α : Type} [BEq α] (members : List α) : List α :=
  (members.foldl (fun kept member => if kept.contains member then kept else member :: kept) [])
    |>.reverse

end LineCensus.Text
