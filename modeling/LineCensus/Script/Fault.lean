import LineCensus.Script.Token

/-!
What can be wrong with the text of a script. The first five faults are lexical: after one of them
the text can no longer be cut into tokens and comments with confidence.
-/

namespace LineCensus.Script

inductive Fault where
  | unterminatedString
  | unclosedComment
  | invalidCharacter
  | unterminatedTemplate
  | unterminatedPattern
  /-- A number with misplaced separators, digits or suffix. -/
  | malformedNumber
  | malformedEscape
  | unexpectedEnd
  | conflictMarker
  | binaryContent
  /-- A `#!` that does not open the file. -/
  | misplacedShebang
  /-- A `>` or closing brace that JSX text has to write as an escape. -/
  | strayInJsxText
  | escapedKeyword
  | missing (token : Token)
  | unexpected
  /-- Well formed by itself, but not allowed in its place. -/
  | misplaced
  /-- A leading directive comment that says nothing or says it wrongly. -/
  | badDirective
  deriving DecidableEq, Repr

/-- The faults after which comments can no longer be told from code. -/
def Fault.isLexical : Fault → Bool
  | .unterminatedString | .unclosedComment | .invalidCharacter | .unterminatedTemplate
  | .unterminatedPattern => true
  | _ => false

/-- A fault and where in the text it was met. -/
structure Problem where
  position : Nat
  fault : Fault
  deriving DecidableEq, Repr

end LineCensus.Script
