import LineCensus.Text.CasingTable
import LineCensus.Text.Ranges

/-!
Text in lower case. Every character has a lower-case form of its own, except that a capital sigma at
the end of a word becomes a final sigma.
-/

namespace LineCensus.Text

/-- The lower-case form of a character beyond ASCII, looked for in the runs from index `low` up to
`high`. -/
def lowerByRuns (runs : Array CasingTable.Run) (c : Char) (low high : Nat) : Char :=
  if low < high then
    let middle := (low + high) / 2
    match runs[middle]? with
    | none => c
    | some run =>
      if c.toNat < run.first then lowerByRuns runs c low middle
      else if run.last < c.toNat then lowerByRuns runs c (middle + 1) high
      else if (c.toNat - run.first) % run.step == 0 then
        Char.ofNat (Int.toNat (c.toNat + run.shift))
      else c
  else c
termination_by high - low

/-- A capital I with a dot, which keeps the dot as a character of its own. -/
def dottedCapitalI : Char := '\u0130'

def lowerChar (c : Char) : List Char :=
  if c.toNat < 128 then [c.toLower]
  else if c == dottedCapitalI then ['i', '\u0307']
  else [lowerByRuns CasingTable.lower c 0 CasingTable.lower.size]

def isCased (c : Char) : Bool := memRanges CasingTable.cased c

def isCaseIgnorable (c : Char) : Bool := memRanges CasingTable.ignorable c

def capitalSigma : Char := '\u03a3'

def finalSigma : Char := '\u03c2'

/-- Whether a character with case comes first, those that are passed over not counted. -/
def casedFirst (chars : List Char) : Bool :=
  ((chars.dropWhile isCaseIgnorable).head?.map isCased).getD false

/-- The lower-case form of characters that stand behind others, which are given in reverse. -/
def lowerFrom (before : List Char) : List Char → List Char
  | [] => []
  | c :: rest =>
    let here :=
      if c == capitalSigma && casedFirst before && !casedFirst rest then [finalSigma]
      else lowerChar c
    here ++ lowerFrom (c :: before) rest

def lower (text : String) : String := String.ofList (lowerFrom [] text.toList)

end LineCensus.Text
