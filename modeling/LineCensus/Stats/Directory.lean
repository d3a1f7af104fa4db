import LineCensus.Keyed
import LineCensus.Stats.File
import LineCensus.Text.Collation

/-!
The statistics of a directory tree. No total is stored: each is worked out from the files and
directories that a node holds, so that it always agrees with them.
-/

namespace LineCensus.Stats

inductive DirStats (α : Type) where
  | mk (path : String) (files : List (FileStats α)) (directories : List (DirStats α))

namespace DirStats

variable {α : Type}

def path : DirStats α → String
  | mk path _ _ => path

def files : DirStats α → List (FileStats α)
  | mk _ files _ => files

def directories : DirStats α → List (DirStats α)
  | mk _ _ directories => directories

/-- The name of a directory; the root has only its path. -/
def name (dir : DirStats α) : String :=
  let base := Path.base dir.path
  if base.isEmpty then dir.path else base

mutual

/-- The files of a tree: those of a directory itself before those of the directories in it. -/
def allFiles : DirStats α → List (FileStats α)
  | mk _ files directories => files ++ allFilesIn directories

def allFilesIn : List (DirStats α) → List (FileStats α)
  | [] => []
  | dir :: rest => dir.allFiles ++ allFilesIn rest

end

mutual

def fileCount : DirStats α → Nat
  | mk _ files directories => files.length + fileCountIn directories

def fileCountIn : List (DirStats α) → Nat
  | [] => 0
  | dir :: rest => dir.fileCount + fileCountIn rest

end

variable [Count α]

mutual

/-- The sum of a figure over a tree: that of each directory is worked out by itself and then added to
that of the files before it. -/
def sumOf (figure : FileStats α → α) : DirStats α → α
  | mk _ files directories => sumIn figure (sum (files.map figure)) directories

def sumIn (figure : FileStats α → α) (total : α) : List (DirStats α) → α
  | [] => total
  | dir :: rest => sumIn figure (Count.add total (dir.sumOf figure)) rest

end

def totalLines (dir : DirStats α) : α := dir.sumOf (·.total)

def codeLines (dir : DirStats α) : α := dir.sumOf (·.code)

def commentLines (dir : DirStats α) : α := dir.sumOf (·.comment)

def blankLines (dir : DirStats α) : α := dir.sumOf (·.blank)

/-! ### Order -/

/-- Files in the order of their size, the largest first; files of equal size keep their order. -/
def bySize (files : List (FileStats α)) : List (FileStats α) :=
  files.mergeSort fun a b => Count.order b.total a.total != .gt

mutual

def sortBySize : DirStats α → DirStats α
  | mk path files directories => mk path (bySize files) (sortBySizeIn directories)

def sortBySizeIn : List (DirStats α) → List (DirStats α)
  | [] => []
  | dir :: rest => dir.sortBySize :: sortBySizeIn rest

end

/-! ### Changes -/

def addFile (file : FileStats α) : DirStats α → DirStats α
  | mk path files directories => mk path (files ++ [file]) directories

def addDirectory (dir : DirStats α) : DirStats α → DirStats α
  | mk path files directories => mk path files (directories ++ [dir])

def removeFile (index : Nat) : DirStats α → DirStats α
  | mk path files directories => mk path (files.eraseIdx index) directories

def removeDirectory (index : Nat) : DirStats α → DirStats α
  | mk path files directories => mk path files (directories.eraseIdx index)

/-- The directory at a place, given by the index to go to at each level. -/
def at? : List Nat → DirStats α → Option (DirStats α)
  | [], dir => some dir
  | index :: rest, dir => do at? rest (← dir.directories[index]?)

def modifyAt (change : DirStats α → DirStats α) : List Nat → DirStats α → DirStats α
  | [], dir => change dir
  | index :: rest, mk path files directories =>
    mk path files (directories.modify index (modifyAt change rest))

end DirStats

/-! ### Summaries -/

variable {α : Type} [Count α]

structure ScriptSummary (α : Type) where
  files : Nat
  classes : α
  functions : α
  filesWithModuleDoc : Nat
  deriving DecidableEq, Repr

def scriptDetails (files : List (FileStats α)) : List (ScriptDetails α) :=
  files.filterMap fun file =>
    match file.details with
    | some (.script details) => some details
    | _ => none

def DirStats.scriptSummary (dir : DirStats α) : ScriptSummary α :=
  let scripts := scriptDetails dir.allFiles
  { files := scripts.length
    classes := sum (scripts.map (·.classes))
    functions := sum (scripts.map (·.functions))
    filesWithModuleDoc := scripts.countP (·.hasModuleDoc) }

structure MarkdownSummary (α : Type) where
  files : Nat
  totals : MarkdownDetails α
  deriving DecidableEq, Repr

def markdownDetails (files : List (FileStats α)) : List (MarkdownDetails α) :=
  files.filterMap fun file =>
    match file.details with
    | some (.markdown details) => some details
    | _ => none

def DirStats.markdownSummary (dir : DirStats α) : MarkdownSummary α :=
  let documents := markdownDetails dir.allFiles
  { files := documents.length
    totals :=
      { headingsByLevel := Vector.ofFn fun level =>
          sum (documents.map fun document => document.headingsByLevel[level])
        headings := sum (documents.map (·.headings))
        links := sum (documents.map (·.links))
        images := sum (documents.map (·.images))
        codeBlocks := sum (documents.map (·.codeBlocks))
        tables := sum (documents.map (·.tables)) } }

structure LanguageTotals (α : Type) where
  files : Nat
  lines : α
  code : α
  comments : α
  blank : α
  deriving DecidableEq, Repr

def LanguageTotals.zero : LanguageTotals α := ⟨0, Count.zero, Count.zero, Count.zero, Count.zero⟩

def LanguageTotals.add (totals : LanguageTotals α) (file : FileStats α) : LanguageTotals α :=
  { files := totals.files + 1
    lines := Count.add totals.lines file.total
    code := Count.add totals.code file.code
    comments := Count.add totals.comments file.comment
    blank := Count.add totals.blank file.blank }

/-- Whether the totals of one language may stand before those of another: more lines come first, and
the names decide where there are as many. -/
def precedes (compareNames : String → String → Ordering) (a b : String × LanguageTotals α) : Bool :=
  match Count.order a.2.lines b.2.lines with
  | .gt => true
  | .lt => false
  | .eq => compareNames a.1 b.1 != .gt

/-- The totals of each language, in the order in which the languages first occur. -/
def totalsByLanguage (files : List (FileStats α)) : List (String × LanguageTotals α) :=
  files.foldl
    (fun totals file =>
      Keyed.update file.language (fun before => (before.getD .zero).add file) totals)
    []

/-- The totals of each language of a tree, those with the most lines first, for some order of names. -/
def DirStats.languagesBy (compareNames : String → String → Ordering) (dir : DirStats α) :
    List (String × LanguageTotals α) :=
  (totalsByLanguage dir.allFiles).mergeSort (precedes compareNames)

/-- The totals of each language, for the order of names that readers expect. -/
def DirStats.languages (dir : DirStats α) : List (String × LanguageTotals α) :=
  dir.languagesBy Text.collate

end LineCensus.Stats
