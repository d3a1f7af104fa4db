import LineCensus.Script.Lexeme
import LineCensus.Text.Casing
import LineCensus.Text.Find

/-!
The kinds of scripts, told from the path of a file: typed or not, with markup or without.
-/

namespace LineCensus.Script

inductive Kind where
  | ts
  | tsx
  | js
  | jsx
  deriving DecidableEq, Repr

/-- The endings of paths that tell the kind of a script, in lower case. Any other path is that of a
typed script without markup. -/
def kindSuffixes : List (String × Kind) :=
  [(".tsx", .tsx), (".jsx", .jsx), (".js", .js), (".mjs", .js), (".cjs", .js)]

def hasSuffix (suffix text : String) : Bool := suffix.toList.isSuffixOf text.toList

/-- The kind of the script with a path. Letter case makes no difference. -/
def Kind.ofPath (path : String) : Kind :=
  let lowered := Text.lower path
  ((kindSuffixes.find? fun entry => hasSuffix entry.1 lowered).map Prod.snd).getD .ts

def Kind.dialect : Kind → Dialect
  | ts => { markup := false, untyped := false }
  | tsx => { markup := true, untyped := false }
  | js | jsx => { markup := true, untyped := true }

def Kind.language : Kind → String
  | ts | tsx => "TypeScript"
  | js | jsx => "JavaScript"

def extensions : List String :=
  [".ts", ".tsx", ".mts", ".cts", ".js", ".jsx", ".mjs", ".cjs"]

/-! ### What a path says about checking -/

/-- The last part of a path; slashes of both kinds separate the parts. -/
def lastPart (path : String) : List Char :=
  (path.toList.reverse.takeWhile fun c => c != '/' && c != '\\').reverse

def isDeclarationPath (path : String) : Bool :=
  [".d.ts", ".d.mts", ".d.cts"].any (hasSuffix · path)
    || (hasSuffix ".ts" path && Text.containsChars ".d.".toList (lastPart path))

/-- Whether a path can be checked at all: files of declarations and of data cannot. -/
def isCheckable (path : String) : Bool :=
  !isDeclarationPath path && !hasSuffix ".json" path

/-- Whether a path makes its file a module, whatever the file holds. -/
def isModulePath (path : String) : Bool :=
  [".cts", ".cjs", ".mts", ".mjs"].any (hasSuffix · path)

end LineCensus.Script
