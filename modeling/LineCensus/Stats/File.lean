import LineCensus.Path
import LineCensus.Stats.Count

/-!
The lines of a file by kind, and what else is known of it.
-/

namespace LineCensus.Stats

structure ScriptDetails (α : Type) where
  hasModuleDoc : Bool
  classes : α
  functions : α
  deriving DecidableEq, Repr

abbrev headingLevels : Nat := 6

structure MarkdownDetails (α : Type) where
  /-- The headings of each level, from the first one on. -/
  headingsByLevel : Vector α headingLevels
  headings : α
  links : α
  images : α
  codeBlocks : α
  tables : α
  deriving DecidableEq, Repr

inductive Details (α : Type) where
  | script (details : ScriptDetails α)
  | markdown (details : MarkdownDetails α)
  deriving DecidableEq, Repr

structure FileStats (α : Type) where
  path : String
  language : String
  total : α
  code : α
  comment : α
  blank : α
  details : Option (Details α)
  deriving DecidableEq, Repr

namespace FileStats

variable {α : Type} [Count α]

/-- The statistics of a file from figures that need not fit together. There are no more blank lines
than lines and no more comment lines than are left, so that code is what remains. -/
def ofFigures (path language : String) (total blank comment : α) (details : Option (Details α)) :
    FileStats α :=
  let total := Count.clean total
  let blank := Count.smaller (Count.clean blank) total
  let comment := Count.smaller (Count.clean comment) (Count.sub total blank)
  { path, language, total, blank, comment, details
    code := Count.sub (Count.sub total blank) comment }

def name (file : FileStats α) : String := Path.base file.path

end FileStats

end LineCensus.Stats
