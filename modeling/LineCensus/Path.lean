/-!
Paths of files: their parts, their extensions, and how they are joined and resolved. Slashes separate
the parts; a path that begins with one is absolute.
-/

namespace LineCensus.Path

def cut : List Char → List (List Char)
  | [] => [[]]
  | c :: rest =>
    if c == '/' then [] :: cut rest
    else match cut rest with
      | part :: parts => (c :: part) :: parts
      | [] => [[c]]

def parts (path : List Char) : List (List Char) := (cut path).filter (!·.isEmpty)

/-- The last part of a path. Slashes at the end do not count. -/
def baseChars (path : List Char) : List Char :=
  ((path.reverse.dropWhile (· == '/')).takeWhile (· != '/')).reverse

def base (path : String) : String := String.ofList (baseChars path.toList)

/-- What is left of a name in reverse before its last dot, with the extension cut off. -/
def extensionChars (name : List Char) : List Char :=
  let last := (name.reverse.takeWhile (· != '.')).reverse
  let stem := name.take (name.length - last.length - 1)
  if last.length == name.length || stem.isEmpty || (stem == ['.'] && last.isEmpty) then []
  else '.' :: last

/-- The extension of the last part of a path, from its last dot on. A dot that begins the part opens
no extension, and a part of two dots has none. -/
def extension (path : String) : String := String.ofList (extensionChars (baseChars path.toList))

def isAbsolute (path : List Char) : Bool := path.head? == some '/'

/-- Add a part to parts in reverse: a dot changes nothing, and two dots undo a part. Where there is
nothing to undo they are kept, unless the path is absolute. -/
def push (absolute : Bool) (done : List (List Char)) (part : List Char) : List (List Char) :=
  if part == ['.'] then done
  else if part == ['.', '.'] then
    match done with
    | last :: rest => if last == ['.', '.'] then part :: done else rest
    | [] => if absolute then [] else [part]
  else part :: done

def normalParts (path : List Char) : List (List Char) :=
  ((parts path).foldl (push (isAbsolute path)) []).reverse

def glue (parts : List (List Char)) : List Char := ['/'].intercalate parts

/-- A path with the dots worked out and single slashes. One slash at the end is kept. -/
def normalizeChars (path : List Char) : List Char :=
  if path.isEmpty then ['.']
  else
    let body := glue (normalParts path)
    let slash := path.getLast? == some '/'
    if isAbsolute path then
      if body.isEmpty then ['/'] else '/' :: body ++ (if slash then ['/'] else [])
    else if body.isEmpty then (if slash then ['.', '/'] else ['.'])
    else body ++ (if slash then ['/'] else [])

def join (first second : String) : String :=
  let given := [first.toList, second.toList].filter (!·.isEmpty)
  String.ofList (normalizeChars (glue given))

/-- The absolute path that `path` stands for in a directory, without a slash at the end. -/
def resolve (directory path : String) : String :=
  let whole := if isAbsolute path.toList then path.toList
    else directory.toList ++ '/' :: path.toList
  String.ofList ('/' :: glue (normalParts ('/' :: whole)))

end LineCensus.Path
