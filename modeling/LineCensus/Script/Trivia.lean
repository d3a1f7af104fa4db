import LineCensus.Script.Source

/-!
What separates tokens: white space, line breaks, comments, the shebang line and the markers that an
unfinished merge leaves behind.
-/

namespace LineCensus.Script

def isLineBreak (c : Char) : Bool :=
  c == '\n' || c == '\r' || c == '\u2028' || c == '\u2029'

/-- The characters that separate tokens without ending the line. -/
def isLineSpace (c : Char) : Bool :=
  c == ' ' || c == '\t' || c == '\x0b' || c == '\x0c' || c == '\u00a0' || c == '\u0085' ||
  c == '\u1680' || ('\u2000' ≤ c && c ≤ '\u200b') || c == '\u202f' || c == '\u205f' ||
  c == '\u3000' || c == '\ufeff'

def isSpaceOrBreak (c : Char) : Bool := isLineSpace c || isLineBreak c

namespace Source

/-- The end of the line on which a position lies, before its break. -/
def lineEnd (source : Source) (position : Nat) : Nat :=
  source.skipWhile (fun c => !isLineBreak c) position

def shebangLength (source : Source) : Nat :=
  if source.startsAt 0 ['#', '!'] then source.lineEnd 2 else 0

/-- The position just after the next `*/` that begins at `position` or later. -/
def blockCommentEnd (source : Source) (position : Nat) : Option Nat :=
  if position < source.size then
    if source.startsAt position ['*', '/'] then some (position + 2)
    else source.blockCommentEnd (position + 1)
  else none
termination_by source.size - position

def markerLength : Nat := 7

/-- Whether a conflict marker stands here: at the start of a line, seven times the same character,
then more text, and a space next unless the marker is the middle one. -/
def conflictMarkerAt (source : Source) (position : Nat) : Bool :=
  let c := source.char position
  (position == 0 || isLineBreak (source.char (position - 1)))
    && decide (position + markerLength < source.size)
    && source.startsAt position (List.replicate markerLength c)
    && (c == '=' || source.char (position + markerLength) == ' ')

/-- The next `=======` or `>>>>>>>` marker that is not drawn with the character `own`. -/
def nextMarker (source : Source) (own : Char) (position : Nat) : Nat :=
  if position < source.size then
    let c := source.char position
    if (c == '=' || c == '>') && c != own && source.conflictMarkerAt position then position
    else source.nextMarker own (position + 1)
  else position
termination_by source.size - position

/-- Where the text that a conflict marker hides ends: the first and the last marker hide their own
line, the ones between hide everything up to the next. -/
def conflictMarkerEnd (source : Source) (position : Nat) : Nat :=
  let c := source.char position
  if c == '<' || c == '>' then source.lineEnd position else source.nextMarker c position

/-- The end of one piece of white space, comment, shebang or conflict marker that begins here. -/
def triviaPiece (source : Source) (position : Nat) : Option Nat :=
  let c := source.char position
  if source.size ≤ position then none
  else if isSpaceOrBreak c then some (position + 1)
  else if source.startsAt position ['/', '/'] then some (source.lineEnd (position + 2))
  else if source.startsAt position ['/', '*'] then
    some ((source.blockCommentEnd (position + 2)).getD source.size)
  else if source.conflictMarkerAt position && (c == '<' || c == '|' || c == '=' || c == '>') then
    some (source.conflictMarkerEnd position)
  else if position == 0 && source.shebangLength != 0 then some source.shebangLength
  else none

def skipTrivia (source : Source) (position : Nat) : Nat :=
  match source.triviaPiece position with
  | none => position
  | some next =>
    if position < next ∧ position < source.size then source.skipTrivia next else position
termination_by source.size - position

end Source

end LineCensus.Script
