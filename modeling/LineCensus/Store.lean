import LineCensus.Failure
import LineCensus.Json.Parser
import LineCensus.Keyed
import LineCensus.Path
import LineCensus.Text.Utf8

/-!
A file system: directories with files, directories and symbolic links in them, and what paths lead
to. Paths that do not begin with a slash start at a working directory.
-/

namespace LineCensus

inductive Item where
  | file (bytes : List Nat)
  | directory (items : List (String × Item))
  | link (target : String)
  deriving Inhabited

namespace Item

/-- The names in a directory with what they stand for; nothing else holds names. -/
def items : Item → List (String × Item)
  | directory items => items
  | _ => []

def isDirectory : Item → Bool
  | directory _ => true
  | _ => false

/-- The item that is reached by following names, links not followed. -/
def at? : List String → Item → Option Item
  | [], item => some item
  | name :: rest, directory items =>
    match items.lookup name with
    | some item => at? rest item
    | none => none
  | _ :: _, _ => none

/-- Change what a sequence of names leads to; nothing stands for what is not there, before and after
the change. -/
def modify (change : Option Item → Option Item) : List String → Option Item → Option Item
  | [], item => change item
  | name :: rest, some (directory items) =>
    match modify change rest (items.lookup name) with
    | some changed => some (directory (Keyed.set name changed items))
    | none => some (directory (items.filter fun entry => entry.1 != name))
  | _ :: _, item => item

end Item

/-- A file system by what is in its root. -/
structure Store where
  root : List (String × Item)
  deriving Inhabited

namespace Store

def top (store : Store) : Item := .directory store.root

/-! ### Following paths -/

/-- The names that a path consists of. An empty one stands for a slash too many. -/
def namesOf (path : String) : List String := (Path.cut path.toList).map String.ofList

/-- How many links are followed on the way. -/
def linkBound : Nat := 40

def nameBound : Nat := 255

/-- Whether a link is followed when it comes last. -/
inductive LastLink where
  | follow
  | keep
  deriving DecidableEq, Repr

/-- The place that names lead to from a place, both as names from the root; the place they start from
is given in reverse. The last name may be missing if `create` holds. -/
def follow (store : Store) (last : LastLink) (create : Bool) :
    Nat → List String → List String → Except FileFault (List String)
  | _, place, [] => .ok place.reverse
  | links, place, name :: rest =>
    match store.top.at? place.reverse with
    | some (.directory items) =>
      if name.isEmpty || name == "." then store.follow last create links place rest
      else if name == ".." then store.follow last create links place.tail rest
      else if nameBound < (Text.encode name).length then .error .nameTooLong
      else match items.lookup name with
        | none => if create && rest.isEmpty then .ok (name :: place).reverse else .error .missing
        | some (.link target) =>
          if rest.isEmpty && last == .keep then .ok (name :: place).reverse
          else match links with
            | 0 => .error .tooManyLinks
            | links + 1 =>
              let start := if Path.isAbsolute target.toList then [] else place
              store.follow last create links start (namesOf target ++ rest)
        | some _ => store.follow last create links (name :: place) rest
    | _ => .error .notDirectory
termination_by links _ names => (links, names.length)

def wholePath (directory path : String) : String :=
  if Path.isAbsolute path.toList then path else directory ++ "/" ++ path

def locate (store : Store) (last : LastLink) (create : Bool) (directory path : String) :
    Except FileFault (List String) :=
  if path.isEmpty then .error .missing
  else store.follow last create linkBound [] (namesOf (wholePath directory path))

/-- What a path leads to, links followed. -/
def find (store : Store) (directory path : String) : Except FileFault Item :=
  match store.locate .follow false directory path with
  | .ok place =>
    match store.top.at? place with
    | some item => .ok item
    | none => .error .missing
  | .error fault => .error fault

def reaches (store : Store) (directory path : String) : Bool := (store.find directory path).isOk

/-- What a path leads to, links followed; nothing if it leads nowhere. A path that cannot be
followed to its end because of its links or the length of a name is a fault. -/
def status (store : Store) (directory path : String) : Except FileError (Option Item) :=
  match store.find directory path with
  | .ok item => .ok (some item)
  | .error .missing | .error .notDirectory => .ok none
  | .error fault => .error ⟨fault, "stat", some path⟩

/-! ### Reading -/

def readBytes (store : Store) (directory path : String) : Except FileError (List Nat) :=
  match store.find directory path with
  | .ok (.file bytes) => .ok bytes
  | .ok _ => .error ⟨.isDirectory, "read", none⟩
  | .error fault => .error ⟨fault, "open", some path⟩

/-- The text of a file that has to be there. Bytes that make no sense are replaced. -/
def readText (store : Store) (directory path : String) : Except Failure String :=
  match store.readBytes directory path with
  | .ok bytes => .ok (Text.decodeLossy bytes)
  | .error error => .error (if error.fault == .missing then .fileMissing path else .file error)

def readJson (store : Store) (directory path : String) : Except Failure Json :=
  match store.readText directory path with
  | .ok text =>
    match Json.parse? text with
    | some value => .ok value
    | none => .error .badJson
  | .error failure => .error failure

/-- The text of a source file with its encoding; no text if the file cannot be read. -/
def readSource (store : Store) (directory path : String) : String × Option Text.Encoding :=
  match store.readBytes directory path with
  | .ok bytes => ((Text.decode bytes).1, some (Text.decode bytes).2)
  | .error _ => ("", none)

end Store

end LineCensus
