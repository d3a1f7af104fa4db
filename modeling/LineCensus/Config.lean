import LineCensus.Ignore
import LineCensus.Store

/-!
The configuration of a project: a JSON object in a file in its root or elsewhere. Fields may be
missing, and fields that are not known are passed over.
-/

namespace LineCensus

structure Config where
  /-- The extensions to which a scan is restricted; none if there is no restriction. -/
  extensions : List String
  ignore : List String
  quiet : Bool
  deriving DecidableEq, Repr

namespace Config

def default : Config := ⟨[], [], false⟩

/-- The files in the root of a project that may hold its configuration. The first that is there
counts. -/
def fileNames : List String := [".linestatrc.json", "linestat.config.json"]

def texts? : List Json → Option (List String)
  | [] => some []
  | .string text :: rest => (texts? rest).map (text :: ·)
  | _ :: _ => none

def textsOf (fields : List (String × Json)) (field source : String) :
    Except ConfigFault (List String) :=
  match Json.lookup field fields with
  | none => .ok []
  | some (.array items) =>
    match texts? items with
    | some texts => .ok texts
    | none => .error (.notStrings source field)
  | some _ => .error (.notStrings source field)

/-- A field that is true or false; `standard` if it is missing. -/
def flagOf (fields : List (String × Json)) (field source : String) (standard : Bool) :
    Except ConfigFault Bool :=
  match Json.lookup field fields with
  | none => .ok standard
  | some (.bool value) => .ok value
  | some _ => .error (.notBoolean source field)

/-- The configuration that a value stands for, if there is a value. `source` names it in faults; of
several faults the one with the flag comes first. -/
def ofJson (value : Option Json) (source : String) : Except ConfigFault Config :=
  match value with
  | some (.object fields) => do
    let quiet ← flagOf fields "quiet" source default.quiet
    let extensions ← textsOf fields "extensions" source
    let ignore ← textsOf fields "ignore" source
    return { extensions, ignore, quiet }
  | _ => .error (.notObject source)

def ofFile (store : Store) (directory path : String) : Except ConfigFault Config :=
  match store.readJson directory path with
  | .ok value => ofJson (some value) path
  | .error failure => .error (.unreadable path failure.message)

/-- The configuration of the project in a root: from the given file, which has to be there, or else
from a file in the root. An empty path is no path. -/
def load (store : Store) (directory root : String) (path : Option String) :
    Except ConfigFault Config :=
  match path.filter (!·.isEmpty) with
  | some path =>
    if store.reaches directory path then ofFile store directory path else .error (.missing path)
  | none =>
    match (fileNames.map (Path.join root)).find? (store.reaches directory) with
    | some path => ofFile store directory path
    | none => .ok default

end Config

/-- The names of directories to leave out of a project: those in the ignore file in its root, if
there is one, and those of further patterns. -/
def Ignore.load (store : Store) (directory root : String) (extra : List String) :
    Except Failure (List String) :=
  let path := Path.join root Ignore.fileName
  if store.reaches directory path then
    (store.readText directory path).map fun text => Ignore.names (some text) extra
  else .ok (Ignore.names none extra)

end LineCensus
