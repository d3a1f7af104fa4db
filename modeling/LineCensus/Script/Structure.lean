import LineCensus.Script.Comments
import LineCensus.Text.Find

/-!
What a script declares: its classes, its functions, and whether a comment documents it as a whole.
-/

namespace LineCensus.Script

structure Structure where
  hasModuleDoc : Bool
  classCount : Nat
  functionCount : Nat
  deriving DecidableEq, Repr

def Structure.unknown : Structure := ⟨false, 0, 0⟩

/-! ### Documentation of the module -/

/-- Whether a comment is documentation: two asterisks open it, and there is something in it. -/
def Comment.isDocumentation (source : Source) (comment : Comment) : Bool :=
  comment.kind == .block && source.startsAt comment.start ['/', '*', '*']
    && comment.start + 4 < comment.stop

def moduleTags : List String := ["@packageDocumentation", "@module", "@file", "@fileoverview"]

def isTagPart (c : Char) : Bool := isAsciiLetter c || isAsciiDigit c || c == '_'

/-- Whether a tag stands in a text, not just as the beginning of a longer word. -/
def hasTag (tag : List Char) : List Char → Bool
  | [] => false
  | c :: rest =>
    (tag.isPrefixOf (c :: rest) && !(((c :: rest).drop tag.length).head?.any isTagPart))
      || hasTag tag rest

/-- Whether two line breaks stand in a text with nothing but spaces and tabs between them. CR and LF
count as one break each. `broken` says that there has been one already. -/
def hasBlankGap (broken : Bool) : List Char → Bool
  | [] => false
  | c :: rest =>
    if c == '\n' || c == '\r' then broken || hasBlankGap true rest
    else hasBlankGap (broken && (c == ' ' || c == '\t')) rest

/-- Whether the first of the given comments, or one after it, documents the module: by a tag, or
because nothing follows it, another comment does, or an empty line sets it apart from the first
statement, which begins at `first`. -/
def documentsModule (source : Source) (first : Option Nat) : List Comment → Bool
  | [] => false
  | comment :: rest =>
    (comment.isDocumentation source &&
      let text := (source.slice comment.start comment.stop).toList
      (moduleTags.any fun tag => hasTag tag.toList text)
        || match first with
          | .none => true
          | some first =>
            !rest.isEmpty || hasBlankGap false (source.slice comment.stop first).toList)
    || documentsModule source first rest

def Node.textStart (source : Source) (node : Node) : Nat :=
  if node.isEmpty then node.start else source.skipTrivia node.start

def Node.hasModuleDoc (source : Source) (statements : List Node) : Bool :=
  documentsModule source (statements.head?.map (·.textStart source)) (source.leadingComments 0)

/-! ### Counting -/

def Form.isClass : Form → Bool
  | .classDeclaration | .classExpression => true
  | _ => false

/-- The functions that count wherever they stand. -/
def Form.isFunction : Form → Bool
  | .functionDeclaration | .functionExpression | .methodDeclaration | .constructorDeclaration
  | .getAccessor | .setAccessor => true
  | _ => false

/-- The forms that give an arrow function, as their initial value, a name. -/
def Form.namesInitializer : Form → Bool
  | .variableDeclaration | .propertyDeclaration | .propertyAssignment => true
  | _ => false

/-- Whether a form counts as a function below another form: arrow functions do only if they are given
a name. -/
def countsAsFunction (above : Option Form) (role : Role) (form : Form) : Bool :=
  form.isFunction ||
    (form == .arrowFunction && role == .initializer
      && (above.map Form.namesInitializer).getD false)

mutual

def Node.classCount : Node → Nat
  | .mk _ label _ _ children =>
    let here := match label with
      | .form form _ => if form.isClass then 1 else 0
      | _ => 0
    here + classCountIn children

def classCountIn : List Node → Nat
  | [] => 0
  | node :: rest => node.classCount + classCountIn rest

end

mutual

def Node.functionCount (above : Option Form) : Node → Nat
  | .mk role label _ _ children =>
    match label with
    | .form form _ =>
      (if countsAsFunction above role form then 1 else 0) + functionCountIn (some form) children
    | _ => functionCountIn .none children

def functionCountIn (above : Option Form) : List Node → Nat
  | [] => 0
  | node :: rest => node.functionCount above + functionCountIn above rest

end

def Structure.of (source : Source) (statements : List Node) (tree : Node) : Structure :=
  { hasModuleDoc := Node.hasModuleDoc source statements
    classCount := tree.classCount
    functionCount := tree.functionCount .none }

end LineCensus.Script
