import LineCensus.Analysis
import LineCensus.Extensions
import LineCensus.Ignore
import LineCensus.Log
import LineCensus.Stats.Directory
import LineCensus.Store

/-!
Scans of a project: every file below its root that can be analyzed is, and the statistics make up a
tree of the directories that hold such files. Only a root that is no directory stops a scan; whatever
goes wrong below it is mentioned and passed over.

Links to files are followed and links to directories are not, so that no scan goes in circles.
-/

namespace LineCensus

open LineCensus.Language (Registry)
open Stats (FileStats DirStats)

structure Survey where
  registry : Registry
  /-- The extensions of the files that are analyzed, in lower case and with their dots; files of all
  extensions are if there are none. -/
  extensions : Option (List String)
  /-- The names of directories that are left out like those that always are. -/
  ignored : List String
  logger : Logger
  /-- What an absolute path leads to, links followed. -/
  status : String → Except FileError (Option Item)
  analyze : Method → String → Except Failure (FileStats Nat)
  /-- Why a directory cannot be listed, if it cannot. -/
  refusal : String → Option Failure

structure Found where
  log : List Entry
  files : List (FileStats Nat)
  directories : List (DirStats Nat)

namespace Found

/-- Nothing but what there is to say. -/
def silent (log : List Entry) : Found := ⟨log, [], []⟩

def gather (parts : List Found) : Found :=
  ⟨parts.flatMap (·.log), parts.flatMap (·.files), parts.flatMap (·.directories)⟩

end Found

/-- The parts that were found under names, in the order of the names. -/
def inNameOrder (parts : List (String × Found)) : List Found :=
  (parts.mergeSort fun a b => !Text.isBefore b.1 a.1).map Prod.snd

namespace Survey

/-- The survey of a store, with every file analyzed by what it holds. Restrictions and names are
given as in a configuration. -/
def ofStore (store : Store) (registry : Registry) (extensions ignored : List String)
    (logger : Logger) : Survey :=
  { registry, ignored, logger
    extensions := Extensions.restriction extensions
    status := store.status "/"
    analyze := fun method path =>
      .ok (method.analyze registry path (store.readSource "/" path).1)
    refusal := fun _ => none }

def methodFor (survey : Survey) (name : String) : Option Method :=
  if Ignore.isHidden name then none
  else if survey.extensions.all (·.contains (Language.extensionOf name)) then
    Method.select survey.registry name
  else none

def visitFile (survey : Survey) (path name : String) : Found :=
  match survey.methodFor name with
  | none => .silent []
  | some method =>
    match survey.analyze method path with
    | .ok file => ⟨[], [file], []⟩
    | .error failure =>
      .silent (survey.logger.warn ("Failed to analyze " ++ path ++ ": " ++ failure.message))

def visitLink (survey : Survey) (path name : String) : Found :=
  match survey.status path with
  | .ok (some (.file _)) => survey.visitFile path name
  | .ok _ => .silent []
  | .error error =>
    .silent (survey.logger.debug ("Skipping " ++ path ++ ": " ++ error.message))

/-- A directory with what was found at the places in it. -/
def collect (path : String) (parts : List (String × Found)) : List Entry × DirStats Nat :=
  let found := Found.gather (inNameOrder parts)
  (found.log, .mk path found.files found.directories)

def refuse (survey : Survey) (path : String) (failure : Failure) : List Entry × DirStats Nat :=
  (survey.logger.warn ("Skipping unreadable directory " ++ path ++ ": " ++ failure.message),
    .mk path [] [])

/-- What a directory gives to the one that it is in: nothing if there is no file in it. -/
def keep (outcome : List Entry × DirStats Nat) : Found :=
  ⟨outcome.1, [], if 0 < outcome.2.fileCount then [outcome.2] else []⟩

mutual

def visit (survey : Survey) (path name : String) : Item → Found
  | .file _ => survey.visitFile path name
  | .link _ => survey.visitLink path name
  | .directory items =>
    if Ignore.skips survey.ignored name then
      .silent (survey.logger.debug ("Ignoring directory " ++ path))
    else
      match survey.refusal path with
      | some failure => keep (survey.refuse path failure)
      | none => keep (collect path (survey.visitAll path items))

def visitAll (survey : Survey) (directory : String) :
    List (String × Item) → List (String × Found)
  | [] => []
  | (name, item) :: rest =>
    (name, survey.visit (Path.join directory name) name item)
      :: survey.visitAll directory rest

end

/-- The messages of a walk through the directory at a path, and what is found in it. -/
def walk (survey : Survey) (path : String) (items : List (String × Item)) :
    List Entry × DirStats Nat :=
  match survey.refusal path with
  | some failure => survey.refuse path failure
  | none => collect path (survey.visitAll path items)

def rootItems (status : String → Except FileError (Option Item)) (path : String) :
    Except Failure (List (String × Item)) :=
  match status path with
  | .ok (some (.directory items)) => .ok items
  | .ok (some _) => .error (.root (.notDirectory path))
  | .ok none => .error (.root (.missing path))
  | .error error => .error (.file error)

/-- Scan the project in the directory at an absolute path: the messages, and the tree with the files
of each directory in the order of their size. -/
def scan (survey : Survey) (root : String) : Except Failure (List Entry × DirStats Nat) :=
  (rootItems survey.status root).map fun items =>
    let (log, dir) := survey.walk root items
    (log, dir.sortBySize)

end Survey

end LineCensus
