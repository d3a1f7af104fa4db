import LineCensus.Calendar
import LineCensus.Command.Run
import LineCensus.Store.Change
import Std.Time.DateTime.Timestamp

/-!
The program: what a run needs is read from the file system, and what it says is printed.
-/

namespace LineCensus

/-- The bytes of a file. One that cannot be read counts as empty. -/
def bytesOfEntry (entry : IO.FS.DirEntry) : IO (List Nat) := do
  try
    return (← IO.FS.readBinFile entry.path).toList.map UInt8.toNat
  catch _ =>
    return []

mutual

/-- Read what is at a path. Directories that are always left out are not read. A link becomes the file
that it leads to, since no other link is followed. -/
partial def readEntry (path : String) (entry : IO.FS.DirEntry) :
    StateT (List String) IO (Option Item) := do
  match (← entry.path.symlinkMetadata).type with
  | .file => return some (.file (← bytesOfEntry entry))
  | .symlink =>
    try
      if (← entry.path.metadata).type == .file then return some (.file (← bytesOfEntry entry))
      else return none
    catch _ => return none
  | .dir =>
    if Ignore.skips [] (Path.base path) then return some (.directory [])
    else readItems path entry
  | .other => return none

/-- Read everything in the directory at a path. One that cannot be listed counts as empty and is added
to the state. -/
partial def readItems (path : String) (entry : IO.FS.DirEntry) :
    StateT (List String) IO (Option Item) := do
  try
    let mut items := []
    for child in ← entry.path.readDir do
      if let some item ← readEntry (Path.join path child.fileName) child then
        items := (child.fileName, item) :: items
    return some (.directory items)
  catch _ =>
    modify (path :: ·)
    return some (.directory [])

end

def readPath (path : String) : StateT (List String) IO (Option Item) := do
  try
    let place ← IO.FS.realPath path
    let entry : IO.FS.DirEntry :=
      match place.parent, place.fileName with
      | some root, some fileName => { root, fileName }
      | _, _ => { root := place, fileName := "" }
    if ← entry.path.isDir then readItems path entry
    else return some (.file (← bytesOfEntry entry))
  catch _ => return none

def addPath (store : Store) (path : String) : StateT (List String) IO Store := do
  match ← readPath path with
  | some item => return ((store.put path item).toOption).getD store
  | none => return store

def pathsOf (directory : String) (arguments : List String) : List String :=
  match Command.readRequest arguments with
  | .ok request =>
    if request.listExtensions then []
    else
      (request.path :: (request.config.filter (!·.isEmpty)).toList).map (Path.resolve directory)
  | .error _ => []

def surroundingsOf (arguments : List String) : IO Command.Surroundings := do
  let directory := (← IO.currentDir).toString
  let (store, refused) ← ((pathsOf directory arguments).foldlM addPath ⟨[]⟩).run []
  let now ← Std.Time.Timestamp.now
  return {
    store, directory
    time := Instant.render ⟨now.toMillisecondsSinceUnixEpoch.val⟩
    painter := ⟨← (← IO.getStdout).isTty⟩
    refusal := fun path =>
      if refused.contains path then some (.file ⟨.denied, "scandir", some path⟩) else none }

end LineCensus

open LineCensus in
def main (arguments : List String) : IO UInt32 := do
  let result := Command.run (← surroundingsOf arguments) arguments
  (← IO.getStdout).putStr (result.printed .out)
  (← IO.getStderr).putStr (result.printed .err)
  return result.exitCode.toUInt32
