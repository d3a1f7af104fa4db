import LineCensus.Script.Lexeme
import LineCensus.Script.Tree
import LineCensus.Text.Blank
import LineCensus.Text.Lines

/-!
The comments of a script: which stand around the nodes of its tree, and which lines they touch.
Text that only looks like a comment, inside a literal or between markup tags, is none.
-/

namespace LineCensus.Script

inductive CommentKind where
  | line
  | block
  deriving DecidableEq, Repr

structure Comment where
  kind : CommentKind
  start : Nat
  stop : Nat
  deriving DecidableEq, Repr

/-! ### Comments at a position -/

def Source.commentAt (source : Source) (position : Nat) : Option Comment :=
  if source.startsAt position ['/', '/'] then
    some ⟨.line, position, source.lineEnd (position + 2)⟩
  else if source.startsAt position ['/', '*'] then
    some ⟨.block, position, (source.blockCommentEnd (position + 2)).getD source.size⟩
  else none

/-- The comments from a position on up to the next token. Those before the first line break count
only if `collecting` holds, and those after it not at all if `onOneLine` holds. -/
def Source.commentsFrom (source : Source) (onOneLine collecting : Bool) (position : Nat) :
    List Comment :=
  if position < source.size then
    let c := source.char position
    if c == '\n' || c == '\r' then
      if onOneLine then [] else source.commentsFrom onOneLine true (position + 1)
    else if isSpaceOrBreak c then source.commentsFrom onOneLine collecting (position + 1)
    else match source.commentAt position with
      | none => []
      | some comment =>
        let rest :=
          if position < comment.stop then source.commentsFrom onOneLine collecting comment.stop
          else []
        if collecting then comment :: rest else rest
  else []
termination_by source.size - position

/-- Where the search for comments begins: a shebang at the start of the text is no comment. -/
def Source.afterShebang (source : Source) (position : Nat) : Nat :=
  if position == 0 then source.shebangLength else position

/-- The comments before what begins at a position: those that begin on a later line than the one on
which the search does, or all of them at the start of the text. -/
def Source.leadingComments (source : Source) (position : Nat) : List Comment :=
  source.commentsFrom false (position == 0) (source.afterShebang position)

/-- The comments behind what ends at a position, on the same line. -/
def Source.trailingComments (source : Source) (position : Nat) : List Comment :=
  source.commentsFrom true true (source.afterShebang position)

/-! ### Comments of a tree -/

inductive Place where
  /-- A node or a token, around which comments may stand. -/
  | node (start stop : Nat)
  /-- Text between markup tags, in which none may. -/
  | markupText (start stop : Nat)
  deriving DecidableEq, Repr

/-- The tokens in the text between two nodes; none if a name is among them, for a name always has a
node of its own. -/
def gapTokens (source : Source) (dialect : Dialect) (position stop : Nat) :
    Option (List Place) :=
  if position < stop then
    let lexeme := (Lexeme.scan source dialect .unknown position).1
    if stop < lexeme.stop then some []
    else if lexeme.token == .identifier then none
    else
      let here := Place.node position lexeme.stop
      if position < lexeme.stop ∧ lexeme.token ≠ .endOfFile then
        (gapTokens source dialect lexeme.stop stop).map (here :: ·)
      else some [here]
  else some []
termination_by stop - position
decreasing_by simp_all +zetaDelta; omega

/-- The forms that only documentation may hold. They are not looked into. -/
def Form.isDocumentation : Form → Bool
  | .docType | .docNullableType | .docFunctionType => true
  | _ => false

mutual

/-- The places in a node; none if a part of it cannot be found in the text. -/
def Node.places (source : Source) (dialect : Dialect) : Node → Option (List Place)
  | .mk _ label start stop children =>
    match label with
    | .token .jsxText => some [.markupText start stop]
    | .token _ | .identifier _ => some [.node start stop]
    | .list _ => (placesIn source dialect start stop children).map (.node start stop :: ·)
    | .form form _ =>
      if form.isDocumentation then some []
      else (placesIn source dialect start stop children).map (.node start stop :: ·)

def placesIn (source : Source) (dialect : Dialect) (position stop : Nat) :
    List Node → Option (List Place)
  | [] => gapTokens source dialect position stop
  | node :: rest => do
    if !node.isPlaced then none
    let before ← gapTokens source dialect position node.start
    let inside ← node.places source dialect
    let after ← placesIn source dialect node.stop stop rest
    return before ++ inside ++ after

end

def Place.comments (source : Source) : Place → List Comment
  | node start stop => source.leadingComments start ++ source.trailingComments stop
  | markupText _ _ => []

/-- Whether a position lies in text between markup tags. -/
def Place.hides (position : Nat) : Place → Bool
  | node _ _ => false
  | markupText start stop => start ≤ position && position < stop

def Comment.arrange (comments : List Comment) : List Comment :=
  let sorted := comments.mergeSort fun a b => a.start ≤ b.start
  sorted.foldr
    (fun comment rest =>
      match rest with
      | next :: _ => if next.start == comment.start then rest else comment :: rest
      | [] => [comment])
    []

/-- The comments around the nodes of a tree, in the order of the text; none if the tree does not fit
the text. -/
def Node.comments (source : Source) (dialect : Dialect) (tree : Node) : Option (List Comment) :=
  (tree.places source dialect).map fun places =>
    Comment.arrange <| (places.flatMap (·.comments source)).filter fun comment =>
      !places.any (·.hides comment.start)

/-! ### Lines -/

/-- The numbers of the lines that the text from one position to another touches, counted from zero. -/
def linesTouched (starts : List Nat) (start stop : Nat) : List Nat :=
  let first := Text.lineOf starts start
  let last := Text.lineOf starts stop
  (List.range (last + 1 - first)).map (first + ·)

def markedRanges (source : Source) (comments : List Comment) : List (Nat × Nat) :=
  let shebang := if source.shebangLength == 0 then [] else [(0, source.shebangLength)]
  shebang ++ comments.map fun comment => (comment.start, comment.stop)

/-- The numbers of the lines that are not blank and that a comment or the shebang touches, in
increasing order. -/
def commentLineNumbers (source : Source) (lines : List String) (comments : List Comment) :
    List Nat :=
  let starts := Text.lineStarts .script source.chars.toList
  let touched := (markedRanges source comments).flatMap fun (start, stop) =>
    linesTouched starts start stop
  (lines.zipIdx.filter fun (line, number) =>
    touched.contains number && !Text.isBlankLine line).map Prod.snd

end LineCensus.Script
