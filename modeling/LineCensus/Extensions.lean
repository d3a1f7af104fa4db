import LineCensus.Text.Blank
import LineCensus.Text.Casing
import LineCensus.Text.Units

/-!
Lists of extensions to which a scan is restricted.
-/

namespace LineCensus.Extensions

open Text

/-- An extension in lower case and with its dot. -/
def normalize (extension : String) : Option String :=
  let name := lower (trim extension)
  if name.isEmpty || name == "." then none
  else if name.toList.head? == some '.' then some name
  else some ("." ++ name)

/-- The extensions of a list, each once; none if no extension is left, which means that there is no
restriction. -/
def restriction (extensions : List String) : Option (List String) :=
  let names := distinct (extensions.filterMap normalize)
  if names.isEmpty then none else some names

end LineCensus.Extensions
