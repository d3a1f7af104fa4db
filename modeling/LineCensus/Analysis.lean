import LineCensus.Language.Builtin
import LineCensus.Markdown
import LineCensus.Script.Analysis

/-!
How a file is analyzed: as a script, as a Markdown document, or by the comment markers of its
language. The extension decides, and files of no known language are not analyzed.
-/

namespace LineCensus

open LineCensus.Language (Registry)

inductive Method where
  | script
  | markdown
  | markers (language : String)
  deriving DecidableEq, Repr

namespace Method

def select (registry : Registry) (name : String) : Option Method :=
  let extension := Language.extensionOf name
  if Script.extensions.contains extension then some script
  else if Markdown.extensions.contains extension then some markdown
  else
    let language := registry.languageOf extension
    if language == Language.unknown then none else some (markers language)

/-- Which characters break the lines of a file that is analyzed in this way. -/
def lineBreaks : Method → Text.LineBreaks
  | script => .script
  | markdown | markers _ => .text

def run (method : Method) (registry : Registry) (path text : String) (lines : List String) :
    Stats.FileStats Nat :=
  match method with
  | script => Script.fileStats path text lines
  | markdown => Markdown.fileStats path lines
  | markers language => Language.fileStats registry path language lines

def analyze (method : Method) (registry : Registry) (path text : String) : Stats.FileStats Nat :=
  method.run registry path text (Text.splitLines method.lineBreaks text)

end Method

def analyzableExtensions (registry : Registry) : List String :=
  Text.sort (Text.distinct
    (registry.extensions ++ Script.extensions ++ Markdown.extensions))

end LineCensus
