import LineCensus.Script.Grammar.Statements

/-!
Whole files: the parts of the grammar tied together, and the second reading of the statements of a
module in which `await` was first taken for a name.
-/

namespace LineCensus.Script

namespace Grammar

def step : Goal → Parse Node
  | .statement => statementStep
  | .assignment returnTypeAllowed => assignmentStep returnTypeAllowed
  | .operators precedence => operatorsStep precedence
  | .unary => unaryStep
  | .simpleUnary => simpleUnaryStep
  | .leftHandSide => leftHandSideStep
  | .type => typeStep
  | .typeOperator => typeOperatorStep
  | .plainType => plainTypeStep
  | .binding => bindingStep
  | .namespaceRest => namespaceRestStep
  | .markup inExpression firstStart parent isOperand =>
    markupStep inExpression firstStart parent isOperand

/-- Read a part of the grammar, going at most `depth` parts deep into it. -/
def read (source : Source) (dialect : Dialect) : Nat → Context → Goal → State → Node × State
  | 0, _, _, state =>
    (.mk .part (.identifier "") state.lexeme.fullStart state.lexeme.fullStart [], state)
  | depth + 1, context, goal, state =>
    step goal { source, dialect, context, read := read source dialect depth } state

/-- A depth that no text reaches: between two tokens only a few parts are opened. -/
def depthBound (source : Source) : Nat := 64 * (source.size + 8)

variable {α : Type}

def startAt (source : Source) (dialect : Dialect) (position : Nat) (p : Parse α) : α × State :=
  let env : Env := { source, dialect, context := {}, read := read source dialect (depthBound source) }
  let first := Lexeme.scan source dialect .unknown position
  let begin : Parse α := do
    install first
    p
  begin env { lexeme := first.1 }

end Grammar

/-- A file that has been read: its tree, and what is wrong with the text, in the order in which it
was met. -/
structure Parsed where
  tree : Node
  problems : List Problem

namespace Parsed

def statements (parsed : Parsed) : List Node :=
  match parsed.tree.children with
  | list :: _ => list.children
  | [] => []

end Parsed

/-! ### Modules -/

def Node.hasModifier (word : Token) (node : Node) : Bool :=
  (node.listOf .modifiers).any (·.isToken word)

def Node.makesModule (node : Node) : Bool :=
  match node.form? with
  | some .importDeclaration | some .exportAssignment | some .exportDeclaration => true
  | some .importEquals =>
    node.hasModifier .kwExport ||
      ((node.child? .reference).map (·.hasForm .moduleReference)).getD false
  | _ => node.hasModifier .kwExport

mutual

def Node.mentionsImportMeta : Node → Bool
  | .mk _ label _ _ children =>
    (label == .form .importMeta .plain && children.any (·.name == "meta"))
      || mentionImportMeta children

def mentionImportMeta : List Node → Bool
  | [] => false
  | node :: rest => node.mentionsImportMeta || mentionImportMeta rest

end

def Parsed.isModule (parsed : Parsed) : Bool :=
  parsed.statements.any (·.makesModule) || parsed.tree.mentionsImportMeta

/-! ### `await` at the top level of a module -/

/-- The forms that `await` as a name in them does not count for: types, functions with their bodies,
and what is read as a part of a module at once. -/
def Form.hidesAwait : Form → Bool
  | .typeReference | .typePredicate | .functionType | .constructorType | .typeQuery | .typeLiteral
  | .arrayType | .tupleType | .restType | .optionalType | .namedTupleMember | .unionType
  | .intersectionType | .conditionalType | .inferType | .parenthesizedType | .thisType
  | .typeOperator | .indexedAccessType | .mappedType | .literalType | .templateType
  | .templateTypeSpan | .importType | .docType | .docNullableType | .docFunctionType
  | .typeParameter | .propertySignature | .methodSignature | .callSignature
  | .constructSignature | .indexSignature | .interfaceDeclaration | .typeAlias
  | .functionExpression | .functionDeclaration | .arrowFunction | .constructorDeclaration
  | .moduleDeclaration | .globalExport | .importEquals | .importDeclaration
  | .exportAssignment | .exportDeclaration => true
  | _ => false

def Form.isMethodLike : Form → Bool
  | .methodDeclaration | .getAccessor | .setAccessor => true
  | _ => false

mutual

/-- Whether `await` is used as a name in a node, other than to declare or select something. -/
def Node.usesAwaitName : Node → Bool
  | .mk role (.identifier name) _ _ _ => name == "await" && role != .name
  | .mk _ (.form form _) _ _ children =>
    !form.hidesAwait && useAwaitName form.isMethodLike children
  | .mk _ (.list _) _ _ children => useAwaitName false children
  | .mk _ (.token _) _ _ _ => false

def useAwaitName (bodyHidden : Bool) : List Node → Bool
  | [] => false
  | node :: rest =>
    (!(bodyHidden && node.role == .body) && node.usesAwaitName)
      || useAwaitName bodyHidden rest

end

/-- The problems at or after one position and before another, the order being that in which they
were met. -/
def problemsBetween (problems : List Problem) (start : Nat) (stop : Option Nat) : List Problem :=
  let rest := problems.dropWhile fun problem => problem.position < start
  match stop with
  | some stop => rest.takeWhile fun problem => problem.position < stop
  | none => rest

namespace Grammar

/-- The statements that still have to be read again or copied, with those read so far; the newest
come first. -/
structure Rereading where
  rest : List Node
  gathered : List Node
  problems : List Problem

def isPlain (node : Node) : Bool := !node.usesAwaitName

/-- Read statements where `await` is an operator until one ends where a statement that needs no
second reading begins; `rest` begins with that statement. -/
def rereadFrom : Nat → List Node → List Node → Parse (List Node × List Node)
  | 0, rest, gathered => return (rest, gathered)
  | bound + 1, rest, gathered => do
    if (← token) == .endOfFile then return (rest, gathered)
    let start ← position
    let node ← statement
    let gathered := node :: gathered
    if start == (← position) then advance
    match rest with
    | [] => rereadFrom bound [] gathered
    | goal :: later =>
      if node.stop == goal.start then return (rest, gathered)
      else if goal.start < node.stop then rereadFrom bound (later.dropWhile (!isPlain ·)) gathered
      else rereadFrom bound rest gathered

/-- Read the statements again that use `await` as a name. The problems of the others are kept. -/
def rereadAwaits (source : Source) (dialect : Dialect) (problems : List Problem) :
    Nat → Rereading → Rereading
  | 0, reading => reading
  | bound + 1, reading =>
    match reading.rest with
    | [] => reading
    | first :: _ =>
      let copied := reading.rest.takeWhile isPlain
      match reading.rest.dropWhile isPlain with
      | [] =>
        { rest := [], gathered := copied.reverse ++ reading.gathered,
          problems := (problemsBetween problems first.start none).reverse ++ reading.problems }
      | second :: later =>
        let kept := problemsBetween problems first.start (some second.start)
        let again : Parse (List Node × List Node) :=
          awaiting true (rereadFrom (2 * source.size + 4) (later.dropWhile (!isPlain ·)) [])
        let ((rest, nodes), state) := startAt source dialect second.start again
        let after : Rereading :=
          { rest, gathered := nodes ++ copied.reverse ++ reading.gathered,
            problems := state.problems ++ kept.reverse ++ reading.problems }
        rereadAwaits source dialect problems bound after

end Grammar

def parse (source : Source) (dialect : Dialect) : Parsed :=
  let file : Grammar.Parse (Node × Node) := do
    let list ← Grammar.members .sourceElements Grammar.statement
    let last ← Grammar.takeToken
    return (list, last)
  let ((list, last), state) := Grammar.startAt source dialect 0 file
  { tree := .mk .part (.form .sourceFile .plain) 0 source.size [list, last]
    problems := state.problems.reverse }

/-- Read the file again as a module where the first reading took `await` for a name. -/
def Parsed.asModule (source : Source) (dialect : Dialect) (parsed : Parsed) : Parsed :=
  match parsed.tree with
  | .mk role label start stop (.mk listRole listLabel listStart listStop statements :: last) =>
    if statements.any (·.usesAwaitName) then
      let reading := Grammar.rereadAwaits source dialect parsed.problems (statements.length + 1)
        { rest := statements, gathered := [], problems := [] }
      { tree := .mk role label start stop
          (.mk listRole listLabel listStart listStop reading.gathered.reverse :: last)
        problems := reading.problems.reverse }
    else parsed
  | _ => parsed

end LineCensus.Script
