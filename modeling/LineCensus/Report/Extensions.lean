import LineCensus.Analysis
import LineCensus.Report.Figures

/-!
The list of the extensions of which files are analyzed: those of some families together, and all
others in rows.
-/

namespace LineCensus.Report

open LineCensus.Language (Registry)

def families : List (String × List String) := [
  ("TypeScript / JavaScript", [".ts", ".tsx", ".mts", ".cts", ".js", ".jsx", ".mjs", ".cjs"]),
  ("Python", [".py", ".pyw", ".pyi"]),
  ("Web", [".html", ".htm", ".css", ".scss", ".sass", ".less"]),
  ("C / C++", [".c", ".h", ".cpp", ".cc", ".cxx", ".hpp", ".hh", ".hxx"]),
  ("Java / JVM", [".java", ".kt", ".kts", ".scala", ".groovy"]),
  ("Markdown", [".md", ".markdown"])]

def columns : Nat := 6

/-- Cut a list into rows of one member and so many more. -/
def rowsOf {α : Type} (more : Nat) : List α → List (List α)
  | [] => []
  | first :: rest => (first :: rest.take more) :: rowsOf more (rest.drop more)
termination_by members => members.length
decreasing_by simp only [List.length_drop, List.length_cons]; omega

def familyMembers (extensions : List String) (family : String × List String) : List String :=
  extensions.filter fun extension => family.2.contains extension

def otherExtensions (extensions : List String) : List String :=
  extensions.filter fun extension => !families.any fun family => family.2.contains extension

def row (extensions : List String) : String := "  " ++ ", ".intercalate extensions

def familyLines (extensions : List String) : List String :=
  families.flatMap fun family =>
    let members := familyMembers extensions family
    if members.isEmpty then [] else ["", family.1 ++ ":", row members]

def otherLines (extensions : List String) : List String :=
  let others := otherExtensions extensions
  if others.isEmpty then [] else ["", "Other languages:"] ++ (rowsOf (columns - 1) others).map row

def listRule : String := String.ofList (List.replicate 40 '═')

def extensionList (registry : Registry) : String :=
  let extensions := analyzableExtensions registry
  "\n".intercalate <|
    ["📋 Supported extensions", listRule] ++ familyLines extensions ++ otherLines extensions
      ++ ["", "Total: " ++ bare extensions.length ++ " supported extensions", listRule]

end LineCensus.Report
