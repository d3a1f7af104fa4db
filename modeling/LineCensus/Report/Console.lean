import LineCensus.Paint
import LineCensus.Report.Figures
import LineCensus.Report.TreeDrawing
import LineCensus.Text.Blank
import LineCensus.Text.Units

/-!
The report for readers: the tree of directories and files, and a summary of the whole.
-/

namespace LineCensus.Report

open Numeric Stats

variable {α : Type} [Count α]

inductive Mode where
  | full
  | directories
  | compact
  deriving DecidableEq, Repr

def wideRule : String := String.ofList (List.replicate 60 '═')

def narrowRule : String := String.ofList (List.replicate 40 '─')

/-! ### The tree -/

def dirLabel (painter : Painter) (dir : DirStats α) : String :=
  let figures :=
    "(" ++ countWith dir.fileCount "file" ++ ", " ++ countWith dir.totalLines "line" ++ ")"
  painter.paint [.bold, .blue] ("📁 " ++ dir.name ++ "/") ++ " " ++ painter.paint [.gray] figures

def fileLabel (file : FileStats α) : String :=
  "📄 " ++ file.name ++ "  " ++ countWith file.total "line" ++ " (" ++ count file.code ++ " code, "
    ++ count file.comment ++ " comments, " ++ count file.blank ++ " blank)"

def fileBranch (painter : Painter) (file : FileStats α) : Branch :=
  .mk (fileLabel file) [painter.paint [.gray] (describe file)] []

mutual

/-- A directory as a tree to draw: its files, if they are shown, before its directories. -/
def dirBranch (painter : Painter) (showFiles : Bool) : DirStats α → Branch
  | .mk path files directories =>
    .mk (dirLabel painter (.mk path files directories)) []
      ((if showFiles then files.map (fileBranch painter) else [])
        ++ dirBranches painter showFiles directories)

def dirBranches (painter : Painter) (showFiles : Bool) : List (DirStats α) → List Branch
  | [] => []
  | dir :: rest => dirBranch painter showFiles dir :: dirBranches painter showFiles rest

end

/-! ### The summary -/

def header (painter : Painter) (project : String) : List String :=
  [painter.paint [.bold] "📊 linestat - Project Analysis", wideRule, "📁 Project: " ++ project,
    wideRule, ""]

def totalsSection (painter : Painter) (dir : DirStats α) : List String :=
  let shares := dirShares dir
  let kind (name : String) (n : α) (share : Binary64) : String :=
    name ++ ": " ++ count n ++ " (" ++ percent share ++ ")"
  [wideRule, painter.paint [.bold] "📈 Summary", wideRule, "",
    "Total Files: " ++ count dir.fileCount,
    "Total Lines: " ++ count dir.totalLines,
    "  ├── " ++ kind "Code" dir.codeLines shares.code,
    "  ├── " ++ kind "Comments" dir.commentLines shares.comment,
    "  └── " ++ kind "Blank" dir.blankLines shares.blank,
    ""]

def scriptHeading : String := "🔷 TypeScript / JavaScript"

def scriptSection (painter : Painter) (summary : ScriptSummary α) : List String :=
  if summary.files == 0 then []
  else
    [painter.paint [.bold] scriptHeading,
      "  ├── Files: " ++ count summary.files,
      "  ├── Classes: " ++ count summary.classes,
      "  ├── Functions: " ++ count summary.functions,
      "  └── Files with module doc: " ++ count summary.filesWithModuleDoc,
      ""]

def levelList (details : MarkdownDetails α) : List String :=
  details.headingsByLevel.toList.zipIdx.filterMap fun (n, level) =>
    if Binary64.isLess (Binary64.zero false) (Count.number n) then
      some ("h" ++ bare (level + 1) ++ ": " ++ bare n)
    else none

def markdownSection (painter : Painter) (summary : MarkdownSummary α) : List String :=
  if summary.files == 0 then []
  else
    let totals := summary.totals
    let levels := ", ".intercalate (levelList totals)
    [painter.paint [.bold] "📝 Markdown",
      "  ├── Files: " ++ count summary.files,
      "  ├── Headings: " ++ count totals.headings
        ++ (if levels.isEmpty then "" else " (" ++ levels ++ ")"),
      "  ├── Links: " ++ count totals.links ++ " | Images: " ++ count totals.images,
      "  └── Code blocks: " ++ count totals.codeBlocks ++ " | Tables: " ++ count totals.tables,
      ""]

/-- The languages with their figures in columns; `lines` is the number of lines of the whole. -/
def languageSection (painter : Painter) (lines : α) (languages : List (String × LanguageTotals α)) :
    List String :=
  if languages.isEmpty then []
  else
    let width := (languages.map fun entry => Text.length entry.1).foldl max 0
    let row (entry : String × LanguageTotals α) : String :=
      let (language, totals) := entry
      "  " ++ Text.padEnd language width ++ "  " ++ countWith totals.files "file" ++ ", "
        ++ countWith totals.lines "line" ++ " ("
        ++ percent (percentage (Count.number totals.lines) (Count.number lines)) ++ ")"
    painter.paint [.bold] "🗂  Languages" :: languages.map row ++ [""]

def summarySections (painter : Painter) (dir : DirStats α) : List String :=
  totalsSection painter dir ++ scriptSection painter dir.scriptSummary
    ++ markdownSection painter dir.markdownSummary
    ++ languageSection painter dir.totalLines dir.languages ++ [wideRule]

def compactLines (painter : Painter) (project : String) (dir : DirStats α) : List String :=
  let shares := dirShares dir
  let scripts := dir.scriptSummary
  [painter.paint [.bold] "📊 linestat - Quick Summary", narrowRule, "Project: " ++ project,
    "Files: " ++ count dir.fileCount ++ " | Lines: " ++ count dir.totalLines,
    "Code: " ++ percent shares.code ++ " | Comments: " ++ percent shares.comment ++ " | Blank: "
      ++ percent shares.blank]
  ++ (if scripts.files == 0 then []
    else [scriptHeading ++ ": " ++ countWith scripts.files "file" ++ ", "
      ++ countOf scripts.classes "class" "classes" ++ ", "
      ++ countWith scripts.functions "function"])
  ++ [narrowRule]

def drawnTree (painter : Painter) (showFiles : Bool) (dir : DirStats α) : String :=
  String.ofList (Text.trimRight (dirBranch painter showFiles dir).draw.toList)

def console (painter : Painter) (mode : Mode) (project : String) (dir : DirStats α) : String :=
  "\n".intercalate <| match mode with
    | .compact => compactLines painter project dir
    | .full | .directories =>
      header painter project ++ [drawnTree painter (mode == .full) dir, ""]
        ++ summarySections painter dir

end LineCensus.Report
