import LineCensus.Language.CommentLines
import LineCensus.Script.Directives
import LineCensus.Script.Grammar.SourceFile
import LineCensus.Script.Kind
import LineCensus.Script.Structure
import LineCensus.Script.Untyped

/-!
What is found out about a script: its structure and its comment lines. A script with problems has no
structure; where comments cannot be told from code with confidence, the lines that begin with two
slashes are counted instead.
-/

namespace LineCensus.Script

/-- What has been found out about a script that could be read. -/
structure Findings where
  problems : List Problem
  declared : Structure
  /-- The comments, unless the tree does not fit the text. -/
  comments : Option (List Comment)

def Parsed.asModuleIf (isModule : Bool) (source : Source) (dialect : Dialect) (parsed : Parsed) :
    Parsed :=
  if isModule then parsed.asModule source dialect else parsed

/-- A script read for its tree; its path tells the dialect. -/
def parsedAt (path : String) (source : Source) : Parsed :=
  let dialect := (Kind.ofPath path).dialect
  let parsed := parse source dialect
  parsed.asModuleIf (!isDeclarationPath path && parsed.isModule) source dialect

/-- The dialect in which a script is checked: without a path, all that types and markup can make of
it is allowed. -/
def checkedDialect (path : String) : Dialect :=
  (if path.isEmpty then .tsx else Kind.ofPath path).dialect

/-- What is wrong with a script, its directives and its dialect included. -/
def problemsAt (path : String) (source : Source) : List Problem :=
  let dialect := checkedDialect path
  let parsed := parse source dialect
  let parsed := parsed.asModuleIf (parsed.isModule || isModulePath path) source dialect
  let directives := if source.directives == .wellFormed then [] else [⟨0, .badDirective⟩]
  let untyped := if dialect.untyped && Untyped.refuses parsed.tree then [⟨0, .misplaced⟩] else []
  parsed.problems ++ directives ++ untyped

def examine (path : String) (source : Source) : Option Findings :=
  if !isCheckable path || source.directives == .unreadable then none
  else
    let parsed := parsedAt path source
    some
      { problems := problemsAt path source
        declared := Structure.of source parsed.statements parsed.tree
        comments := parsed.tree.comments source (Kind.ofPath path).dialect }

def isSlashLine (line : String) : Bool := ['/', '/'].isPrefixOf (Text.trim line).toList

def countSlashLines (lines : List String) : Nat := lines.countP isSlashLine

/-- The structure to report: none is known of a script with problems. -/
def reportedStructure : Option Findings → Structure
  | some findings => if findings.problems.isEmpty then findings.declared else .unknown
  | none => .unknown

def countCommentLines (source : Source) (lines : List String) (findings : Option Findings) : Nat :=
  let comments := do
    let findings ← findings
    if findings.problems.any (·.fault.isLexical) then none else findings.comments
  match comments with
  | some comments => (commentLineNumbers source lines comments).length
  | none => countSlashLines lines

def statsOf (path : String) (source : Source) (lines : List String) (findings : Option Findings) :
    Stats.FileStats Nat :=
  let declared := reportedStructure findings
  .ofFigures path (Kind.ofPath path).language lines.length
    (Language.countBlank lines) (countCommentLines source lines findings)
    (some (.script ⟨declared.hasModuleDoc, declared.classCount, declared.functionCount⟩))

def fileStats (path text : String) (lines : List String) : Stats.FileStats Nat :=
  let source := Source.ofString text
  statsOf path source lines (examine path source)

end LineCensus.Script
