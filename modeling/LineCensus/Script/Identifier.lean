import LineCensus.Script.IdentifierTable
import LineCensus.Script.Source
import LineCensus.Text.Ranges

/-!
The characters of identifiers.
-/

namespace LineCensus.Script

def isAsciiLetter (c : Char) : Bool := ('a' ≤ c && c ≤ 'z') || ('A' ≤ c && c ≤ 'Z')

def isAsciiDigit (c : Char) : Bool := '0' ≤ c && c ≤ '9'

def isIdentifierStart (c : Char) : Bool :=
  isAsciiLetter c || c == '$' || c == '_' ||
  (127 < c.toNat && Text.memRanges IdentifierTable.starts c)

def isIdentifierPart (c : Char) : Bool :=
  isAsciiLetter c || isAsciiDigit c || c == '$' || c == '_' ||
  (127 < c.toNat && Text.memRanges IdentifierTable.parts c)

end LineCensus.Script
