import LineCensus.Script.Grammar.Types

/-!
Classes and their members.
-/

namespace LineCensus.Script.Grammar

/-- The words that are not what the writer of a statement without a semicolon most likely meant have
problems of their own; for a declaration that failed, one has been noted already. -/
def noteMissingEnd (node : Node) : Parse Unit := do
  let text ← source
  let start := text.skipTrivia node.start
  if node.hasForm .taggedTemplate then
    match node.children.getLast? with
    | some template => reportAt (text.skipTrivia template.start) .misplaced
    | none => reportHere (.missing .semicolon)
  else if node.name.isEmpty then reportHere (.missing .semicolon)
  else
    match Token.ofWord node.name with
    | .kwConst | .kwLet | .kwVar => reportAt start .misplaced
    | .kwDeclare => return ()
    | .kwInterface | .kwModule | .kwNamespace | .kwType => reportHere .unexpected
    | .kwIs => reportAt start .misplaced
    | _ => if (← token) != .unknown then reportAt start .unexpected

/-! ### Heritage -/

def heritageElement : Parse Node := do
  let start ← position
  let inner ← goal .leftHandSide
  if inner.hasForm .instantiation then return inner
  let arguments ← typeArguments?
  finish .instantiation start ([inner.as .expression] ++ optional .typeArguments arguments)

def heritageClause : Parse Node := do
  let start ← position
  let word ← token
  advance
  let list ← separated .heritageClauseElements heritageElement false
  finishMarked .heritageClause (if word == .kwImplements then .implementing else .plain) start
    [list]

def heritageClauses? : Parse (Option Node) := do
  if isHeritageWord (← token) then return some (← members .heritageClauses heritageClause)
  else return none

/-! ### Members -/

def endProperty (name : Node) (typed initialized : Bool) : Parse Unit := do
  if (← token) == .at && !(← afterBreak) then reportHere .misplaced
  else if (← token) == .openParen then
    reportHere .misplaced
    advance
  else if typed && !(← canEndStatement) then reportHere (.missing .semicolon)
  else if ← tryEndStatement then return ()
  else if initialized then reportHere (.missing .semicolon)
  else noteMissingEnd name

def property (start : Nat) (words : Option Node) (name : Node) (question : Option Node) :
    Parse Node := do
  let exclamation ←
    if question.isNone && !(← afterBreak) then acceptNode .exclamation else pure none
  let annotation ← typeAnnotation?
  let initial ← yielding false <| awaiting false <| allowingIn initializer?
  endProperty name annotation.isSome initial.isSome
  finish .propertyDeclaration start
    (optional .modifiers words ++ [name.as .name] ++ optional .question question
      ++ optional .part exclamation ++ optional .type annotation
      ++ optional .initializer initial)

def propertyOrMethod (start : Nat) (words : Option Node) : Parse Node := do
  let asteriskNode ← acceptNode .asterisk
  let name ← propertyName
  let question ← acceptNode .question
  if asteriskNode.isSome || isOpenParenOrLessThan (← token) then
    method start words asteriskNode name question none
  else property start words name question

/-- The word that makes a member the constructor, or the same word in quotes before a parenthesis. -/
def constructorName : Parse Bool := do
  match ← token with
  | .kwConstructor =>
    advance
    return true
  | .stringLiteral =>
    if (← next token) == .openParen && (← lexeme).value == "constructor" then
      advance
      return true
    else return false
  | _ => return false

def constructor? (start : Nat) (words : Option Node) : Parse (Option Node) := do
  if !(← constructorName) then return none
  let typeParams ← typeParameters?
  let params ← parameters {}
  let result ← resultType? false
  let body ← functionBody? {}
  return some (← finish .constructorDeclaration start
    (optional .modifiers words ++ optional .typeParameters typeParams ++ [params]
      ++ optional .type result ++ optional .body body))

def staticBlock (start : Nat) (words : Option Node) : Parse Node := do
  expectQuietly .kwStatic
  let body ← yielding false (awaiting true (block false))
  finish .staticBlock start (optional .modifiers words ++ [body.as .body])

def classElement : Parse Node := do
  let start ← position
  if (← token) == .semicolon then
    advance
    return ← finish .emptyMember start []
  let words ← modifiers { decorators := true, constAllowed := true, staticBlocks := true }
  let opensBlock ←
    if (← token) == .kwStatic then next (tokenIs (· == .openBrace)) else pure false
  if opensBlock then return ← staticBlock start words
  if let some node ← accessor? start words false then return node
  if let some node ← constructor? start words then return node
  if ← isIndexSignature then return ← indexSignature start words
  let t ← token
  if t.isLiteralPropertyName || t == .asterisk || t == .openBracket then
    return ← propertyOrMethod start words
  let name ← missingNameBefore
  property start words name none

/-! ### Classes -/

def isImplementsClause : Parse Bool := do
  if (← token) == .kwImplements then next (tokenIs Token.isWord) else return false

def className? : Parse (Option Node) := do
  if !(← isBindingIdentifier) then return none
  if ← isImplementsClause then return none
  return some (← takeName true)

def classLike (form : Form) (start : Nat) (words : Option Node) : Parse Node := do
  expectQuietly .kwClass
  let name ← className?
  let typeParams ← typeParameters?
  let awaits := hasModifier .kwExport words || (← context).awaits
  let (clauses, list) ← awaiting awaits do
    let clauses ← heritageClauses?
    if ← expect .openBrace then
      let list ← members .classMembers classElement
      expectQuietly .closeBrace
      return (clauses, list)
    else return (clauses, ← missingList)
  finish form start
    (optional .modifiers words ++ optional .name name ++ optional .typeParameters typeParams
      ++ optional .part clauses ++ [list])

end LineCensus.Script.Grammar
