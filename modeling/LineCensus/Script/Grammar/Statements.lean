import LineCensus.Script.Grammar.Modules

/-!
Statements and declarations.
-/

namespace LineCensus.Script.Grammar

def statement : Parse Node := goal .statement

/-! ### Variables -/

def variableDeclaration (exclamationAllowed : Bool) : Parse Node := do
  let start ← position
  let name ← binding
  let exclamation ←
    if exclamationAllowed && name.isIdentifier && !(← afterBreak) then acceptNode .exclamation
    else pure none
  let annotation ← typeAnnotation?
  let initial ← match ← token with
    | .kwIn | .kwOf => pure none
    | _ => initializer?
  finish .variableDeclaration start
    ([name.as .name] ++ optional .part exclamation ++ optional .type annotation
      ++ optional .initializer initial)

/-- The variables behind the word that declares them. In the header of a loop, `of` may follow that
word at once, and `in` ends an initializer. -/
def variableList (inHeader : Bool) : Parse Node := do
  let start ← position
  if (← token) == .kwAwait then advance
  advance
  let isOf ←
    if (← token) == .kwOf then next do
      if !(← isIdentifier) then return false
      advance
      return (← token) == .closeParen
    else pure false
  let read := separated .variableDeclarations (variableDeclaration (!inHeader)) false
  let list ←
    if isOf then missingList
    else within (fun c => { c with withoutIn := inHeader }) read
  finish .variableList start [list]

def variableStatement (start : Nat) (words : Option Node) : Parse Node := do
  let list ← variableList false
  endStatement
  finish .variableStatement start (optional .modifiers words ++ [list])

/-! ### Control flow -/

def condition : Parse Node := do
  expectQuietly .openParen
  let inner ← allowingIn expression
  expectQuietly .closeParen
  return inner.as .expression

def ifStatement : Parse Node := do
  let start ← position
  advance
  let test ← condition
  let whenTrue ← statement
  let whenFalse ← if ← accept .kwElse then some <$> statement else pure none
  finish .ifStatement start ([test, whenTrue] ++ optional .part whenFalse)

def doStatement : Parse Node := do
  let start ← position
  advance
  let body ← statement
  expectQuietly .kwWhile
  let test ← condition
  discard (accept .semicolon)
  finish .doStatement start [body, test]

def whileStatement : Parse Node := do
  let start ← position
  advance
  let test ← condition
  let body ← statement
  finish .whileStatement start [test, body]

def loopInitializer? : Parse (Option Node) := do
  let declares ← match ← token with
    | .semicolon => return none
    | .kwVar | .kwLet | .kwConst => pure true
    | .kwUsing => peek (declaresAfterUsing true)
    | .kwAwait => isAwaitUsingDeclaration
    | _ => pure false
  if declares then return some (← variableList true)
  else return some (← forbiddingIn expression)

def forStatement : Parse Node := do
  let start ← position
  advance
  let awaitNode ← acceptNode .kwAwait
  expectQuietly .openParen
  let initial ← loopInitializer?
  let isOf ← if awaitNode.isSome then expect .kwOf else accept .kwOf
  if isOf then
    let values ← allowingIn assignment
    expectQuietly .closeParen
    let body ← statement
    finish .forOfStatement start
      (optional .part awaitNode ++ optional .initializer initial ++ [values, body])
  else if ← accept .kwIn then
    let object ← allowingIn expression
    expectQuietly .closeParen
    let body ← statement
    finish .forInStatement start (optional .initializer initial ++ [object, body])
  else
    expectQuietly .semicolon
    let test ← match ← token with
      | .semicolon | .closeParen => pure none
      | _ => some <$> allowingIn expression
    expectQuietly .semicolon
    let step ←
      if (← token) == .closeParen then pure none else some <$> allowingIn expression
    expectQuietly .closeParen
    let body ← statement
    finish .forStatement start
      (optional .initializer initial ++ optional .part test ++ optional .part step ++ [body])

/-- A jump, with the name of a label unless the statement ends before it. -/
def jump (form : Form) : Parse Node := do
  let start ← position
  advance
  let label ← if ← canEndStatement then pure none else some <$> identifier
  endStatement
  finish form start (optional .reference label)

def returnStatement : Parse Node := do
  let start ← position
  advance
  let value ← if ← canEndStatement then pure none else some <$> allowingIn expression
  endStatement
  finish .returnStatement start (optional .expression value)

def withStatement : Parse Node := do
  let start ← position
  advance
  let object ← condition
  let body ← statement
  finish .withStatement start [object, body]

def switchClause : Parse Node := do
  let start ← position
  if ← accept .kwCase then
    let value ← allowingIn expression
    expectQuietly .colon
    let statements ← members .switchClauseStatements statement
    finish .caseClause start [value.as .expression, statements]
  else
    expectQuietly .kwDefault
    expectQuietly .colon
    let statements ← members .switchClauseStatements statement
    finish .defaultClause start [statements]

def switchStatement : Parse Node := do
  let start ← position
  advance
  let value ← condition
  let blockStart ← position
  expectQuietly .openBrace
  let clauses ← members .switchClauses switchClause
  expectQuietly .closeBrace
  let cases ← finish .caseBlock blockStart [clauses]
  finish .switchStatement start [value, cases]

/-- The value that is thrown has to begin on the same line; without one a name without text stands in,
and nothing is noted. -/
def throwStatement : Parse Node := do
  let start ← position
  advance
  let value ← if ← afterBreak then missingName else allowingIn expression
  if !(← tryEndStatement) then noteMissingEnd value
  finish .throwStatement start [value.as .expression]

def catchClause : Parse Node := do
  let start ← position
  advance
  let bound ←
    if ← accept .openParen then do
      let node ← variableDeclaration false
      expectQuietly .closeParen
      pure [node]
    else pure []
  let body ← block false
  finish .catchClause start (bound ++ [body])

def tryStatement : Parse Node := do
  let start ← position
  expectQuietly .kwTry
  let body ← block false
  let handler ← if (← token) == .kwCatch then some <$> catchClause else pure none
  let final ←
    if handler.isNone || (← token) == .kwFinally then do
      expectQuietly .kwFinally
      some <$> block false
    else pure none
  finish .tryStatement start ([body] ++ optional .part handler ++ optional .part final)

def debuggerStatement : Parse Node := do
  let start ← position
  advance
  endStatement
  finish .debuggerStatement start []

def expressionOrLabeled : Parse Node := do
  let start ← position
  let inner ← allowingIn expression
  let labels ← if inner.isIdentifier then accept .colon else pure false
  if labels then
    let body ← statement
    finish .labeledStatement start [inner.as .reference, body]
  else
    if !(← tryEndStatement) then noteMissingEnd inner
    finish .expressionStatement start [inner.as .expression]

/-! ### Declarations -/

def functionDeclaration (start : Nat) (words : Option Node) : Parse Node := do
  expectQuietly .kwFunction
  let asteriskNode ← acceptNode .asterisk
  let nameless ←
    if hasModifier .kwDefault words then not <$> isBindingIdentifier else pure false
  let name ← if nameless then pure none else some <$> bindingIdentifier
  let flavor : Flavor := { yields := asteriskNode.isSome, awaits := hasModifier .kwAsync words }
  let typeParams ← typeParameters?
  let awaits := hasModifier .kwExport words || (← context).awaits
  let (params, result, body) ← awaiting awaits do
    let params ← parameters flavor
    let result ← resultType? false
    let body ← functionBody? flavor
    return (params, result, body)
  finish .functionDeclaration start
    (optional .modifiers words ++ optional .part asteriskNode ++ optional .name name
      ++ optional .typeParameters typeParams ++ [params] ++ optional .type result
      ++ optional .body body)

def interfaceDeclaration (start : Nat) (words : Option Node) : Parse Node := do
  expectQuietly .kwInterface
  let name ← identifier
  let typeParams ← typeParameters?
  let clauses ← heritageClauses?
  let list ← typeMembers
  finish .interfaceDeclaration start
    (optional .modifiers words ++ [name.as .name] ++ optional .typeParameters typeParams
      ++ optional .part clauses ++ [list])

def typeAlias (start : Nat) (words : Option Node) : Parse Node := do
  expectQuietly .kwType
  if ← afterBreak then reportHere .misplaced
  let name ← identifier
  let typeParams ← typeParameters?
  expectQuietly .equals
  let intrinsic? : Parse (Option Node) := do
    let node ← takeToken
    if (← token) == .dot then return none else return some node
  let intrinsic ← if (← token) == .kwIntrinsic then attempt intrinsic? else pure none
  let type ← match intrinsic with
    | some node => pure node
    | none => goal .type
  endStatement
  finish .typeAlias start
    (optional .modifiers words ++ [name.as .name] ++ optional .typeParameters typeParams
      ++ [type.as .type])

def enumMember : Parse Node := do
  let start ← position
  let name ← propertyName
  let initial ← allowingIn initializer?
  finish .enumMember start ([name.as .name] ++ optional .initializer initial)

def enumDeclaration (start : Nat) (words : Option Node) : Parse Node := do
  expectQuietly .kwEnum
  let name ← identifier
  let list ←
    if ← expect .openBrace then do
      let list ← yielding false (awaiting false (separated .enumMembers enumMember false))
      expectQuietly .closeBrace
      pure list
    else missingList
  finish .enumDeclaration start (optional .modifiers words ++ [name.as .name, list])

def declaration : Parse Node := do
  let start ← position
  let words ← modifiers { decorators := true }
  match ← token with
  | .kwVar | .kwLet | .kwConst | .kwUsing | .kwAwait => variableStatement start words
  | .kwFunction => functionDeclaration start words
  | .kwClass => classLike .classDeclaration start words
  | .kwInterface => interfaceDeclaration start words
  | .kwType => typeAlias start words
  | .kwEnum => enumDeclaration start words
  | .kwGlobal | .kwModule | .kwNamespace => moduleDeclaration start words
  | .kwImport => importDeclaration start words
  | .kwExport =>
    advance
    match ← token with
    | .kwDefault | .equals => exportAssignment start words
    | .kwAs => globalExport start words
    | _ => exportDeclaration start words
  | _ => missingDeclaration start words

def isLetDeclaration : Parse Bool :=
  next do
    match ← token with
    | .openBrace | .openBracket => return true
    | _ => isBindingIdentifier

def statementStep : Parse Node := do
  let start ← position
  let declared (isDeclaration : Parse Bool) (read : Parse Node) : Parse Node := do
    if ← isDeclaration then read else expressionOrLabeled
  match ← token with
  | .semicolon =>
    advance
    finish .emptyStatement start []
  | .openBrace => block false
  | .kwVar => variableStatement start none
  | .kwLet => declared isLetDeclaration (variableStatement start none)
  | .kwAwait => declared isAwaitUsingDeclaration (variableStatement start none)
  | .kwUsing => declared isUsingDeclaration (variableStatement start none)
  | .kwFunction => functionDeclaration start none
  | .kwClass => classLike .classDeclaration start none
  | .kwIf => ifStatement
  | .kwDo => doStatement
  | .kwWhile => whileStatement
  | .kwFor => forStatement
  | .kwContinue => jump .continueStatement
  | .kwBreak => jump .breakStatement
  | .kwReturn => returnStatement
  | .kwWith => withStatement
  | .kwSwitch => switchStatement
  | .kwThrow => throwStatement
  | .kwTry | .kwCatch | .kwFinally => tryStatement
  | .kwDebugger => debuggerStatement
  | .at => declaration
  | .kwAsync | .kwInterface | .kwType | .kwModule | .kwNamespace | .kwDeclare | .kwConst
  | .kwEnum | .kwExport | .kwImport | .kwPrivate | .kwProtected | .kwPublic | .kwAbstract
  | .kwAccessor | .kwStatic | .kwReadonly | .kwGlobal => declared isDeclarationStart declaration
  | _ => expressionOrLabeled

end LineCensus.Script.Grammar
