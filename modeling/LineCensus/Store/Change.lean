import LineCensus.Store

/-!
Changes to a file system: files, directories and links put in and taken out. Directories on the way
to a path are made where they are missing, and links on the way are followed.
-/

namespace LineCensus.Store

def change (store : Store) (place : List String) (f : Option Item → Option Item) : Store :=
  match Item.modify f place (some store.top) with
  | some (.directory items) => ⟨items⟩
  | _ => store

/-- Make the directory that some names lead to unless it is there; `blocked` is the fault if
something else is. -/
def makeDirectoryAt (store : Store) (blocked : FileFault) (names : List String) :
    Except FileFault Store :=
  match store.follow .follow true linkBound [] names with
  | .ok place =>
    match store.top.at? place with
    | some (.directory _) => .ok store
    | some _ => .error blocked
    | none => .ok (store.change place fun _ => some (.directory []))
  | .error fault => .error fault

def makeDirectoriesAt (store : Store) (names : List String) : Except FileFault Store :=
  (List.range names.length).foldlM
    (fun store depth =>
      store.makeDirectoryAt (if depth + 1 < names.length then .notDirectory else .alreadyThere)
        (names.take (depth + 1)))
    store

def makeDirectory (store : Store) (path : String) : Except FileError Store :=
  (store.makeDirectoriesAt (namesOf path)).mapError fun fault => ⟨fault, "mkdir", some path⟩

def makeParents (store : Store) (path : String) : Except FileError Store :=
  (store.makeDirectoriesAt (namesOf path).dropLast).mapError fun fault =>
    ⟨fault, "mkdir", some path⟩

/-- Put an item at a path in place of what is there. A directory stays where it is. -/
def put (store : Store) (path : String) (item : Item) : Except FileError Store := do
  let store ← store.makeParents path
  match store.follow .follow true linkBound [] (namesOf path) with
  | .ok place =>
    match store.top.at? place with
    | some (.directory _) => throw ⟨.isDirectory, "open", some path⟩
    | _ => return store.change place fun _ => some item
  | .error fault => throw ⟨fault, "open", some path⟩

/-- Put bytes into a file, which is made if it is not there. -/
def writeFile (store : Store) (path : String) (bytes : List Nat) : Except FileError Store :=
  store.put path (.file bytes)

/-- Put a link at a path where nothing is. -/
def makeLink (store : Store) (path target : String) : Except FileError Store := do
  let store ← store.makeParents path
  let both := target ++ "' -> '" ++ path
  match store.follow .keep true linkBound [] (namesOf path) with
  | .ok place =>
    if (store.top.at? place).isSome then throw ⟨.alreadyThere, "symlink", some both⟩
    else return store.change place fun _ => some (.link target)
  | .error fault => throw ⟨fault, "symlink", some both⟩

/-- Take out what is at a path, if there is anything; a link is taken out and not what it leads
to. -/
def remove (store : Store) (path : String) : Store :=
  match store.follow .keep false linkBound [] (namesOf path) with
  | .ok place => store.change place fun _ => none
  | .error _ => store

end LineCensus.Store
