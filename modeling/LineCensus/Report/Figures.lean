import LineCensus.Numeric.Notation
import LineCensus.Stats.Directory

/-!
Figures in writing: counts with a noun, parts of a hundred, and one-line descriptions of files and
directories.
-/

namespace LineCensus.Report

open Numeric Stats

variable {α : Type} [Count α]

def count (n : α) : String := renderGrouped (Count.number n)

def isOne (n : α) : Bool := (Count.number n).equals (Binary64.ofNat 1)

def countOf (n : α) (singular plural : String) : String :=
  count n ++ " " ++ if isOne n then singular else plural

/-- A count with a noun that takes an `s`. -/
def countWith (n : α) (noun : String) : String := countOf n noun (noun ++ "s")

def percent (n : Binary64) : String := renderTenths n ++ "%"

def bare (n : α) : String := render (Count.number n)

/-- The kinds of lines of a file or directory as parts of its lines. -/
structure Shares where
  code : Binary64
  comment : Binary64
  blank : Binary64

def Shares.of (total code comment blank : α) : Shares :=
  let share (part : α) := percentage (Count.number part) (Count.number total)
  ⟨share code, share comment, share blank⟩

def fileShares (file : FileStats α) : Shares :=
  .of file.total file.code file.comment file.blank

def dirShares (dir : DirStats α) : Shares :=
  .of dir.totalLines dir.codeLines dir.commentLines dir.blankLines

def kinds (code comment blank : α) : String :=
  "(" ++ bare code ++ " code, " ++ bare comment ++ " comments, " ++ bare blank ++ " blank)"

def fileLine (file : FileStats α) : String :=
  file.name ++ ": " ++ bare file.total ++ " lines " ++ kinds file.code file.comment file.blank

def dirLine (dir : DirStats α) : String :=
  dir.name ++ ": " ++ bare dir.fileCount ++ " files, " ++ bare dir.totalLines ++ " lines "
    ++ kinds dir.codeLines dir.commentLines dir.blankLines

def describe (file : FileStats α) : String :=
  match file.details with
  | some (.script details) =>
    " · ".intercalate
      [file.language, countOf details.classes "class" "classes",
        countWith details.functions "function",
        "module doc " ++ if details.hasModuleDoc then "✓" else "✗"]
  | some (.markdown details) =>
    " · ".intercalate
      [file.language, countWith details.headings "heading", countWith details.links "link",
        countWith details.images "image", countWith details.codeBlocks "code block",
        countWith details.tables "table"]
  | none => file.language

end LineCensus.Report
