import LineCensus.Path
import LineCensus.Text.Blank
import LineCensus.Text.Units

/-!
Names of directories to leave out: those that are always left out, and those that patterns in an
ignore file or on the command line reduce to. Only patterns that are a plain name count.
-/

namespace LineCensus.Ignore

open Text

def fileName : String := ".linestatignore"

def builtinNames : List String := [
  "venv", "env", ".venv", "__pycache__", ".eggs", ".pytest_cache", ".tox", ".mypy_cache",
  "node_modules", ".npm", ".git", ".svn", ".hg", ".bzr", ".idea", ".vscode", ".vs", ".eclipse",
  ".settings", "build", "dist", "target", "out", "bin", "obj", ".cache", "tmp", "temp", "logs",
  "coverage"]

def builtinSuffixes : List String := [".egg-info"]

def isHidden (name : String) : Bool := name.toList.head? == some '.'

def skips (extra : List String) (name : String) : Bool :=
  isHidden name || builtinNames.contains name || extra.contains name
    || builtinSuffixes.any fun suffix => suffix.toList.isSuffixOf name.toList

/-! ### Patterns -/

/-- Slashes instead of backslashes. -/
def unifySlashes (pattern : List Char) : List Char :=
  pattern.map fun c => if c == '\\' then '/' else c

/-- A pattern without the `./` that it may begin with any number of times. -/
def dropHere : List Char → List Char
  | '.' :: '/' :: rest => dropHere rest
  | pattern => pattern

def dropSlash : List Char → List Char
  | '/' :: rest => rest
  | pattern => pattern

/-- A pattern without what does not change its meaning at its beginning, and without blanks around
it. -/
def normalize (pattern : List Char) : List Char :=
  trimChars (dropSlash (dropHere (unifySlashes (trimChars pattern))))

def dropSlashesBehind (pattern : List Char) : List Char :=
  (pattern.reverse.dropWhile (· == '/')).reverse

/-- A pattern without the `**/` that it may begin with. -/
def dropAnywhere : List Char → List Char
  | '*' :: '*' :: '/' :: rest => rest
  | pattern => pattern

def isSpecial (c : Char) : Bool := "*?[]\x7b\x7d!/".toList.contains c

/-- The plain name that a pattern reduces to. -/
def nameChars (pattern : List Char) : Option (List Char) :=
  let name := dropAnywhere (dropSlashesBehind (normalize pattern))
  if name.isEmpty || name.any isSpecial then none else some name

def nameOf (pattern : String) : Option String :=
  (nameChars pattern.toList).map String.ofList

/-! ### Files -/

/-- Cut characters at LF and CR LF. -/
def fileLines (line : List Char) : List Char → List (List Char)
  | [] => [line.reverse]
  | '\r' :: '\n' :: rest => line.reverse :: fileLines [] rest
  | c :: rest =>
    if c == '\n' then line.reverse :: fileLines [] rest else fileLines (c :: line) rest

/-- The names that the lines of an ignore file reduce to. Lines that begin with a hash do not
count. -/
def parse (text : String) : List String :=
  (fileLines [] text.toList).filterMap fun line =>
    let trimmed := trimChars line
    if trimmed.isEmpty || trimmed.head? == some '#' then none
    else (nameChars trimmed).map String.ofList

/-- Names without blanks around them, each once and none of them empty. -/
def collect (names : List String) : List String :=
  distinct ((names.map trim).filter (!·.isEmpty))

def names (file : Option String) (extra : List String) : List String :=
  collect ((file.map parse).getD [] ++ extra.filterMap nameOf)

end LineCensus.Ignore
