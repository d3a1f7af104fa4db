/-!
Lines of a text. A line ends at a line break, and CR LF is one break; what follows the last break is
a line only if it holds something.
-/

namespace LineCensus.Text

inductive LineBreaks where
  | text
  /-- LF, CR and the two Unicode separators, as scripts count their lines. -/
  | script
  deriving DecidableEq, Repr

def LineBreaks.contains (breaks : LineBreaks) (c : Char) : Bool :=
  c == '\n' || c == '\r' || (breaks == .script && (c == '\u2028' || c == '\u2029'))

/-- Cut characters at the line breaks. There is one piece more than there are breaks. `line` holds
the characters of the first piece that have been passed already, the last one first. -/
def piecesFrom (breaks : LineBreaks) (line : List Char) : List Char → List (List Char)
  | [] => [line.reverse]
  | '\r' :: '\n' :: rest => line.reverse :: piecesFrom breaks [] rest
  | c :: rest =>
    if breaks.contains c then line.reverse :: piecesFrom breaks [] rest
    else piecesFrom breaks (c :: line) rest

def dropEmptyLast (pieces : List (List Char)) : List (List Char) :=
  if pieces.getLast? == some [] then pieces.dropLast else pieces

def splitLines (breaks : LineBreaks) (text : String) : List String :=
  (dropEmptyLast (piecesFrom breaks [] text.toList)).map String.ofList

/-- Where the pieces of a text begin, counted from `position`, except for the first one. -/
def breakEndsFrom (breaks : LineBreaks) (position : Nat) : List Char → List Nat
  | [] => []
  | '\r' :: '\n' :: rest => (position + 2) :: breakEndsFrom breaks (position + 2) rest
  | c :: rest =>
    if breaks.contains c then (position + 1) :: breakEndsFrom breaks (position + 1) rest
    else breakEndsFrom breaks (position + 1) rest

/-- The positions at which lines begin: the start of the text, and the end of each break. -/
def lineStarts (breaks : LineBreaks) (chars : List Char) : List Nat :=
  0 :: breakEndsFrom breaks 0 chars

/-- The number of the line on which a position lies: how many breaks end at or before it. -/
def lineOf (starts : List Nat) (position : Nat) : Nat :=
  (starts.filter (· ≤ position)).length - 1

end LineCensus.Text
