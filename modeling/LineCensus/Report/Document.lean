import LineCensus.Json.Printer
import LineCensus.Report.Figures

/-!
The report for programs, as one JSON document.
-/

namespace LineCensus.Report

open Numeric Stats

variable {α : Type} [Count α]

def numberOf (n : α) : Json := .number (Count.number n)

def levelsJson (levels : Vector α headingLevels) : Json :=
  .object (levels.toList.zipIdx.map fun (n, level) => (bare (level + 1), numberOf n))

def detailsJson : Details α → Json
  | .script details =>
    .object [("kind", .string "script"), ("hasModuleDoc", .bool details.hasModuleDoc),
      ("classCount", numberOf details.classes), ("functionCount", numberOf details.functions)]
  | .markdown details =>
    .object [("kind", .string "markdown"),
      ("headingsByLevel", levelsJson details.headingsByLevel),
      ("headingCount", numberOf details.headings), ("linkCount", numberOf details.links),
      ("imageCount", numberOf details.images), ("codeBlockCount", numberOf details.codeBlocks),
      ("tableCount", numberOf details.tables)]

def fileJson (file : FileStats α) : Json :=
  .object <|
    [("path", .string file.path), ("name", .string file.name),
      ("language", .string file.language), ("totalLines", numberOf file.total),
      ("codeLines", numberOf file.code), ("commentLines", numberOf file.comment),
      ("blankLines", numberOf file.blank)]
    ++ match file.details with
      | some details => [("metadata", detailsJson details)]
      | none => []

mutual

def dirJson : DirStats α → Json
  | .mk path files directories =>
    let dir := DirStats.mk path files directories
    .object
      [("path", .string path), ("name", .string dir.name), ("totalFiles", numberOf dir.fileCount),
        ("totalLines", numberOf dir.totalLines), ("codeLines", numberOf dir.codeLines),
        ("commentLines", numberOf dir.commentLines), ("blankLines", numberOf dir.blankLines),
        ("files", .array (files.map fileJson)), ("subdirectories", .array (dirsJson directories))]

def dirsJson : List (DirStats α) → List Json
  | [] => []
  | dir :: rest => dirJson dir :: dirsJson rest

end

def scriptSummaryJson (summary : ScriptSummary α) : Json :=
  .object [("files", numberOf summary.files), ("classes", numberOf summary.classes),
    ("functions", numberOf summary.functions),
    ("filesWithModuleDoc", numberOf summary.filesWithModuleDoc)]

def markdownSummaryJson (summary : MarkdownSummary α) : Json :=
  let totals := summary.totals
  .object [("files", numberOf summary.files),
    ("headingsByLevel", levelsJson totals.headingsByLevel), ("headings", numberOf totals.headings),
    ("links", numberOf totals.links), ("images", numberOf totals.images),
    ("codeBlocks", numberOf totals.codeBlocks), ("tables", numberOf totals.tables)]

def languageJson (entry : String × LanguageTotals α) : Json :=
  let (language, totals) := entry
  .object [("language", .string language), ("files", numberOf totals.files),
    ("lines", numberOf totals.lines), ("code", numberOf totals.code),
    ("comments", numberOf totals.comments), ("blank", numberOf totals.blank)]

/-- A share with two places after the point. -/
def hundredths (share : Binary64) : Json :=
  .number ((share * Binary64.ofNat 100).nearest / Binary64.ofNat 100)

def summaryJson (dir : DirStats α) : Json :=
  let shares := dirShares dir
  .object [("files", numberOf dir.fileCount), ("lines", numberOf dir.totalLines),
    ("code", numberOf dir.codeLines), ("comments", numberOf dir.commentLines),
    ("blank", numberOf dir.blankLines), ("codePercentage", hundredths shares.code),
    ("commentPercentage", hundredths shares.comment),
    ("blankPercentage", hundredths shares.blank)]

/-- The report on a project, made at the time that is given in writing. -/
def documentJson (project generatedAt : String) (dir : DirStats α) : Json :=
  .object [("project", .string project), ("generatedAt", .string generatedAt),
    ("summary", summaryJson dir), ("scripts", scriptSummaryJson dir.scriptSummary),
    ("markdown", markdownSummaryJson dir.markdownSummary),
    ("languages", .array (dir.languages.map languageJson)), ("tree", dirJson dir)]

def document (project generatedAt : String) (dir : DirStats α) : String :=
  (documentJson project generatedAt dir).renderIndented

end LineCensus.Report
