import LineCensus.Keyed
import LineCensus.Path
import LineCensus.Text.Casing
import LineCensus.Text.Units

/-!
Which extensions belong to which languages, and how comments are written in them.
-/

namespace LineCensus.Language

/-- The markers around a comment of several lines. -/
structure MarkerPair where
  opener : String
  closer : String
  deriving DecidableEq, Repr

structure CommentSyntax where
  /-- What a line that is a comment begins with. -/
  lineMarkers : List String
  regions : List MarkerPair
  deriving DecidableEq, Repr

def CommentSyntax.empty : CommentSyntax := ⟨[], []⟩

def CommentSyntax.hasLineMarkers (markers : CommentSyntax) : Bool := !markers.lineMarkers.isEmpty

def CommentSyntax.hasRegions (markers : CommentSyntax) : Bool := !markers.regions.isEmpty

/-- A syntax with its name and the languages that share it. -/
structure CommentStyle where
  name : String
  languages : List String
  markers : CommentSyntax
  deriving DecidableEq, Repr

def unknown : String := "Unknown"

structure Registry where
  /-- The language of each extension, which is in lower case. -/
  byExtension : List (String × String)
  byLanguage : List (String × CommentSyntax)

namespace Registry

/-- The registry of some extensions and styles. The case of extensions makes no difference; of two
entries for the same thing the later one counts. -/
def make (extensions : List (String × String)) (styles : List CommentStyle) : Registry :=
  { byExtension := Keyed.ofList (extensions.map fun (extension, language) =>
      (Text.lower extension, language))
    byLanguage := Keyed.ofList (styles.flatMap fun style =>
      style.languages.map fun language =>
        (language, { style.markers with lineMarkers := Text.distinct style.markers.lineMarkers })) }

def languageOf (registry : Registry) (extension : String) : String :=
  (registry.byExtension.lookup (Text.lower extension)).getD unknown

def commentSyntax (registry : Registry) (language : String) : CommentSyntax :=
  (registry.byLanguage.lookup language).getD .empty

def extensions (registry : Registry) : List String :=
  Text.sort (registry.byExtension.map Prod.fst)

end Registry

def extensionOf (name : String) : String := Text.lower (Path.extension name)

def Registry.languageOfFile (registry : Registry) (name : String) : String :=
  registry.languageOf (extensionOf name)

end LineCensus.Language
