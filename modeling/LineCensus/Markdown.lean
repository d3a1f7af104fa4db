import LineCensus.Language.CommentLines

/-!
Markdown documents: headings, links, images, fenced blocks of code and tables, as far as they can be
told line by line.
-/

namespace LineCensus.Markdown

open Text

def language : String := "Markdown"

def extensions : List String := [".md", ".markdown"]

/-! ### Fences -/

/-- What a line begins with that opens or closes a block of code. -/
def fence : List Char := List.replicate 3 '\x60'

def isFence (line : String) : Bool := fence.isPrefixOf (trimChars line.toList)

/-- The lines outside of fenced blocks, each with the line that follows it. -/
def openLines (fenced : Bool) : List String → List (String × Option String)
  | [] => []
  | line :: rest =>
    if isFence line then openLines (!fenced) rest
    else if fenced then openLines fenced rest
    else (line, rest.head?) :: openLines fenced rest

def countBlocks (fenced : Bool) : List String → Nat
  | [] => 0
  | line :: rest =>
    if isFence line then (if fenced then 0 else 1) + countBlocks (!fenced) rest
    else countBlocks fenced rest

/-! ### Headings -/

/-- The level of the heading that a line is, counted from zero: one to six hashes, then a blank. -/
def headingLevel? (line : String) : Option (Fin Stats.headingLevels) :=
  let chars := trimLeft line.toList
  let hashes := (chars.takeWhile (· == '#')).length
  let isFollowed := ((chars.drop hashes).head?.map isBlank).getD false
  if h : 0 < hashes ∧ hashes ≤ Stats.headingLevels then
    if isFollowed then some ⟨hashes - 1, by omega⟩ else none
  else none

/-! ### Links and images -/

/-- What follows text up to a closing mark, which has to come; the text may be empty only if
`emptyAllowed` holds. -/
def afterText (emptyAllowed : Bool) (closer : Char) (chars : List Char) : Option (List Char) :=
  match chars.dropWhile (· != closer) with
  | [] => none
  | _ :: rest => if !emptyAllowed && chars.head? == some closer then none else some rest

/-- What follows a text in brackets and a target in parentheses, from behind the opening bracket. -/
def afterReference (emptyAllowed : Bool) (chars : List Char) : Option (List Char) :=
  match afterText emptyAllowed ']' chars with
  | some ('(' :: rest) => afterText false ')' rest
  | _ => none

/-- What follows an image that the characters begin with. Its text may be empty. -/
def afterImage : List Char → Option (List Char)
  | '!' :: '[' :: rest => afterReference true rest
  | _ => none

def afterLink : List Char → Option (List Char)
  | '[' :: rest => afterReference false rest
  | _ => none

/-- How many images a line holds, looked for in at most so many steps. -/
def imagesFrom : Nat → List Char → Nat
  | 0, _ | _, [] => 0
  | bound + 1, c :: rest =>
    match afterImage (c :: rest) with
    | some after => imagesFrom bound after + 1
    | none => imagesFrom bound rest

/-- How many links a line holds behind a character. A bracket behind an exclamation mark opens none. -/
def linksFrom : Nat → Char → List Char → Nat
  | 0, _, _ | _, _, [] => 0
  | bound + 1, before, c :: rest =>
    match if before == '!' then none else afterLink (c :: rest) with
    | some after => linksFrom bound ')' after + 1
    | none => linksFrom bound c rest

def countImages (line : String) : Nat := imagesFrom line.toList.length line.toList

def countLinks (line : String) : Nat := linksFrom line.toList.length ' ' line.toList

/-! ### Tables -/

def skipColon : List Char → List Char
  | ':' :: rest => rest
  | chars => chars

/-- What follows a cell of a divider: hyphens, with or without a colon at either end, and blanks. -/
def afterCell (chars : List Char) : Option (List Char) :=
  let rest := skipColon chars
  if rest.head? == some '-' then some (trimLeft (skipColon (rest.dropWhile (· == '-')))) else none

/-- Whether characters go on with cells of a divider up to their end, each behind a bar; a bar without
a cell may stand at the end. At least one cell has to come unless `enough` holds. -/
def endsDivider : Nat → Bool → List Char → Bool
  | 0, _, _ => false
  | bound + 1, enough, chars =>
    match chars with
    | [] => enough
    | '|' :: rest =>
      let rest := trimLeft rest
      (enough && rest.isEmpty) ||
        match afterCell rest with
        | some rest => endsDivider bound true rest
        | none => false
    | _ => false

/-- Whether a line divides the head of a table from its rows: at least two cells of hyphens with bars
between them. -/
def isDivider (line : String) : Bool :=
  let chars := trimChars line.toList
  let first := match chars with
    | '|' :: rest => trimLeft rest
    | _ => chars
  match afterCell first with
  | some rest => endsDivider (rest.length + 1) false rest
  | none => false

def opensTable (line : String) (next : Option String) : Bool :=
  line.toList.contains '|' && (next.map isDivider).getD false

/-! ### Documents -/

def details (lines : List String) : Stats.MarkdownDetails Nat :=
  let outside := openLines false lines
  let levels := outside.filterMap fun (line, _) => headingLevel? line
  { headingsByLevel := Vector.ofFn fun level => levels.count level
    headings := levels.length
    links := Stats.sum (outside.map fun (line, _) => countLinks line)
    images := Stats.sum (outside.map fun (line, _) => countImages line)
    codeBlocks := countBlocks false lines
    tables := outside.countP fun (line, next) => opensTable line next }

/-- The statistics of a document. No line of it is a comment. -/
def fileStats (path : String) (lines : List String) : Stats.FileStats Nat :=
  .ofFigures path language lines.length (Language.countBlank lines) 0
    (some (.markdown (details lines)))

end LineCensus.Markdown
