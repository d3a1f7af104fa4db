import LineCensus.Language.Registry
import LineCensus.Stats.File
import LineCensus.Text.Blank
import LineCensus.Text.Find

/-!
Comment lines told by the markers of a language. Only whole lines are looked at: markers in literals
count like any others, and regions do not nest.
-/

namespace LineCensus.Language

def startsWith (line marker : String) : Bool := marker.toList.isPrefixOf line.toList

/-- The first pair of markers of which a line holds the opening one. -/
def CommentSyntax.opening (markers : CommentSyntax) (line : String) : Option MarkerPair :=
  markers.regions.find? fun pair => Text.contains line pair.opener

/-- Whether a line that is in no region is a comment, and the marker that has to close the region
that it leaves open. -/
def CommentSyntax.classify (markers : CommentSyntax) (line : String) : Bool × Option String :=
  match markers.opening line with
  | some pair => (true, if Text.contains line pair.closer then none else some pair.closer)
  | none => (markers.lineMarkers.any (startsWith line), none)

/-- For each line whether it is a comment. Blank lines never are. The given marker, if there is one,
has to close a region that is open. -/
def CommentSyntax.marks (markers : CommentSyntax) (closer : Option String) :
    List String → List Bool
  | [] => []
  | line :: rest =>
    let text := Text.trim line
    if text.isEmpty then false :: markers.marks closer rest
    else match closer with
      | some marker =>
        true :: markers.marks (if Text.contains text marker then none else some marker) rest
      | none =>
        let (isComment, opened) := markers.classify text
        isComment :: markers.marks opened rest

def CommentSyntax.countLines (markers : CommentSyntax) (lines : List String) : Nat :=
  (markers.marks none lines).countP id

def countBlank (lines : List String) : Nat := lines.countP Text.isBlankLine

def fileStats (registry : Registry) (path language : String) (lines : List String) :
    Stats.FileStats Nat :=
  .ofFigures path language lines.length (countBlank lines)
    ((registry.commentSyntax language).countLines lines) none

end LineCensus.Language
