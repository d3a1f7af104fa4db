import LineCensus.Script.Comments
import LineCensus.Script.Fault
import LineCensus.Text.Find

/-!
Directives in the comments at the top of a script: a comment of three slashes that holds one tag of
the form `<name key="value" />`. Only tags with a known name are read. The directives themselves
change nothing here, but one that is written wrongly is a problem of the file.
-/

namespace LineCensus.Script

inductive DirectiveOutcome where
  | wellFormed
  | faulty
  | unreadable
  deriving DecidableEq, Repr

namespace Directive

def lowerAscii (chars : List Char) : List Char := chars.map Char.toLower

/-- The characters behind a word that the text begins with, in whatever case of letters. -/
def afterWord (word : List Char) (chars : List Char) : Option (List Char) :=
  if word.isPrefixOf (lowerAscii chars) then some (chars.drop word.length) else none

/-- The value of a key, its quote included, from a text that begins with the blank before the key. -/
def valueHere (key : List Char) : List Char → Option (Char × List Char)
  | [] => none
  | blank :: rest => do
    if !Text.isBlank blank then none
    let rest ← afterWord key rest
    let rest ← afterWord ['='] (Text.trimLeft rest)
    match Text.trimLeft rest with
    | quote :: rest =>
      if (quote == '"' || quote == '\'') && rest.contains quote then
        some (quote, rest.takeWhile (· != quote))
      else none
    | [] => none

def value (key : String) : List Char → Option (Char × List Char)
  | [] => none
  | c :: rest => valueHere key.toList (c :: rest) <|> value key rest

/-- The name of the tag that a comment holds, in lower case. -/
def tagName (comment : List Char) : Option (List Char) := do
  let rest ← afterWord ['/', '/', '/'] comment
  let rest ← afterWord ['<'] (Text.trimLeft rest)
  let name := rest.takeWhile (!Text.isBlank ·)
  let rest := rest.dropWhile (!Text.isBlank ·)
  let closes := Text.containsChars ['/', '>'] rest.tail
  if name.isEmpty || rest.isEmpty || !closes then none else some (lowerAscii name)

/-- The keys of a reference of which the first that has a value tells what is referred to. -/
def referenceKeys : List String := ["types", "lib", "path"]

/-- A reference names something or declares that there is no default library. For types it may say
how they are found, in one of two words. An empty value in single quotes stops the reading. -/
def checkReference (comment : List Char) : DirectiveOutcome :=
  let text (key : String) := (value key comment).map Prod.snd
  if referenceKeys.any fun key => value key comment == some ('\'', []) then .unreadable
  else if text "no-default-lib" == some "true".toList then .wellFormed
  else if (value "types" comment).isSome then
    match text "resolution-mode" with
    | none | some [] => .wellFormed
    | some mode => if mode == "import".toList || mode == "require".toList then .wellFormed else .faulty
  else if referenceKeys.any fun key => (value key comment).isSome then .wellFormed
  else .faulty

def moduleName (comment : List Char) : Option (List Char) :=
  if tagName comment == some "amd-module".toList then (value "name" comment).map Prod.snd else none

def isRenamed : List (List Char) → Bool
  | [] => false
  | name :: rest => (!name.isEmpty && !rest.isEmpty) || isRenamed rest

end Directive

def Source.openingLineComments (source : Source) : List (List Char) :=
  ((source.leadingComments 0).filter (·.kind == .line)).map fun comment =>
    (source.slice comment.start comment.stop).toList

def Source.directives (source : Source) : DirectiveOutcome :=
  let comments := source.openingLineComments
  let references := comments.filter fun comment =>
    Directive.tagName comment == some "reference".toList
  let outcomes := references.map Directive.checkReference
  if outcomes.contains .unreadable then .unreadable
  else if outcomes.contains .faulty || Directive.isRenamed (comments.filterMap Directive.moduleName)
  then .faulty
  else .wellFormed

end LineCensus.Script
