import LineCensus.Script.Lexeme
import LineCensus.Script.Tree

/-!
The steps from which the grammar is built: looking at the current token, going on to the next one,
trying something and coming back, noting what is wrong. Reading never fails; where the text does not
fit the grammar, a problem is noted and the tree gets a node without text.
-/

namespace LineCensus.Script.Grammar

/-- The kinds of lists that the grammar reads, each with tokens of its own that begin a member and
that end the list. -/
inductive ListKind where
  | sourceElements
  | blockStatements
  | switchClauses
  | switchClauseStatements
  | typeMembers
  | classMembers
  | enumMembers
  | heritageClauseElements
  | variableDeclarations
  | objectBindingElements
  | arrayBindingElements
  | argumentExpressions
  | objectLiteralMembers
  | markupAttributes
  | markupChildren
  | arrayLiteralMembers
  | parameters
  | docParameters
  | typeParameters
  | typeArguments
  | tupleElements
  | heritageClauses
  | importOrExportSpecifiers
  | importAttributes
  deriving DecidableEq, Repr

structure Context where
  yields : Bool := false
  awaits : Bool := false
  decorates : Bool := false
  withoutIn : Bool := false
  withoutConditionalTypes : Bool := false
  /-- The lists that have been opened and not yet closed. -/
  lists : List ListKind := []

structure State where
  lexeme : Lexeme
  /-- Newest first. -/
  problems : List Problem := []
  /-- Positions of parentheses that were found to hold no arrow function's parameters. -/
  refuted : List Nat := []

/-- The parts of the grammar that contain each other. -/
inductive Goal where
  | statement
  /-- An expression without commas; the flag says whether a colon after the parameters of an arrow
  function may begin its return type. -/
  | assignment (returnTypeAllowed : Bool)
  | operators (precedence : Nat)
  | unary
  | simpleUnary
  | leftHandSide
  | type
  | typeOperator
  | plainType
  | binding
  | namespaceRest
  /-- A markup element: whether an expression holds it, where the first of several elements without
  a common parent begins, the opening tag around it, and whether an operator follows. -/
  | markup (inExpression : Bool) (firstStart : Option Nat) (parent : Option Node)
      (isOperand : Bool)

structure Env where
  source : Source
  dialect : Dialect
  context : Context
  /-- Reads a part of the grammar that contains the present one. -/
  read : Context → Goal → State → Node × State

abbrev Parse := ReaderT Env (StateM State)

/-! ### Context -/

variable {α : Type}

def context : Parse Context := return (← read).context

def within (change : Context → Context) (p : Parse α) : Parse α :=
  fun env => p { env with context := change env.context }

def allowingIn : Parse α → Parse α := within fun c => { c with withoutIn := false }

def forbiddingIn : Parse α → Parse α := within fun c => { c with withoutIn := true }

def awaiting (value : Bool) : Parse α → Parse α := within fun c => { c with awaits := value }

def yielding (value : Bool) : Parse α → Parse α := within fun c => { c with yields := value }

def decorating (value : Bool) : Parse α → Parse α := within fun c => { c with decorates := value }

def allowingConditionalTypes : Parse α → Parse α :=
  within fun c => { c with withoutConditionalTypes := false }

def forbiddingConditionalTypes : Parse α → Parse α :=
  within fun c => { c with withoutConditionalTypes := true }

def goal (g : Goal) : Parse Node := fun env state => env.read env.context g state

/-! ### Tokens -/

def lexeme : Parse Lexeme := return (← get).lexeme

def token : Parse Token := return (← get).lexeme.token

/-- Where the current token and what separates it from the last one begin. -/
def position : Parse Nat := return (← get).lexeme.fullStart

def source : Parse Source := return (← read).source

def dialect : Parse Dialect := return (← read).dialect

/-- Note a problem, unless the last one noted is at the same place. -/
def reportAt (position : Nat) (fault : Fault) : Parse Unit :=
  modify fun s =>
    if (s.problems.head?.map Problem.position) == some position then s
    else { s with problems := ⟨position, fault⟩ :: s.problems }

def reportHere (fault : Fault) : Parse Unit := do reportAt (← lexeme).start fault

/-- Make a token that has been read the current one. -/
def install (read : Lexeme × List Problem) : Parse Unit := do
  modify fun s => { s with lexeme := read.1 }
  for problem in read.2 do
    reportAt problem.position problem.fault

def reread (again : Source → Lexeme → Lexeme × List Problem) : Parse Unit := do
  install (again (← source) (← lexeme))

def resize (again : Lexeme → Lexeme) : Parse Unit :=
  modify fun s => { s with lexeme := again s.lexeme }

def advanceUnchecked : Parse Unit := do
  let current ← lexeme
  install (Lexeme.scan (← source) (← dialect) current.token current.stop)

/-- Go on to the next token; a keyword that is left behind must not have been spelled with an
escape. -/
def advance : Parse Unit := do
  let current ← lexeme
  if current.escaped && current.token.isKeyword then
    reportAt current.start .escapedKeyword
  advanceUnchecked

def peek (p : Parse α) : Parse α := fun env state =>
  let (result, after) := p env state
  (result, { state with refuted := after.refuted })

def attempt (p : Parse (Option α)) : Parse (Option α) := fun env state =>
  match p env state with
  | (some result, after) => (some result, after)
  | (none, after) => (none, { state with refuted := after.refuted })

/-- Read on, and come back if the outcome is `false`. -/
def attemptIf (p : Parse Bool) : Parse Bool :=
  return (← attempt do return if ← p then some () else none).isSome

def accept (t : Token) : Parse Bool := do
  if (← token) == t then
    advance
    return true
  else return false

/-- Take the token that has to stand here, or note that it is missing. -/
def expect (t : Token) : Parse Bool := do
  if ← accept t then return true
  else
    reportHere (.missing t)
    return false

def expectQuietly (t : Token) : Parse Unit := discard (expect t)

/-! ### Nodes -/

/-- A node of a form that began at `start` and ends with the token before the current one. -/
def finishMarked (form : Form) (mark : Mark) (start : Nat) (children : List Node) :
    Parse Node :=
  return .mk .part (.form form mark) start (← position) children

def finish (form : Form) (start : Nat) (children : List Node) : Parse Node :=
  finishMarked form .plain start children

def finishList (start : Nat) (members : List Node) : Parse Node :=
  return .mk .part (.list true) start (← position) members

def missingList : Parse Node := do
  let here ← position
  return .mk .part (.list false) here here []

def takeToken : Parse Node := do
  let start ← position
  let taken ← token
  advance
  return .mk .part (.token taken) start (← position) []

def acceptNode (t : Token) : Parse (Option Node) := do
  if (← token) == t then return some (← takeToken) else return none

def missingName : Parse Node := do
  let here ← position
  return .mk .part (.identifier "") here here []

/-- Note that a name is missing at the current token, and stand in for it. -/
def missingNameHere : Parse Node := do
  reportHere .unexpected
  missingName

def missingNameBefore : Parse Node := do
  reportAt (← position) .unexpected
  missingName

def expectNode (t : Token) (fault : Fault) : Parse Node := do
  match ← acceptNode t with
  | some node => return node
  | none =>
    reportHere fault
    let here ← position
    return .mk .part (.token t) here here []

def optional (role : Role) : Option Node → List Node
  | some node => [node.as role]
  | none => []

/-! ### Line ends -/

def afterBreak : Parse Bool := return (← lexeme).afterBreak

def canEndStatement : Parse Bool := do
  match ← token with
  | .semicolon | .closeBrace | .endOfFile => return true
  | _ => afterBreak

def tryEndStatement : Parse Bool := do
  if !(← canEndStatement) then return false
  discard (accept .semicolon)
  return true

def endStatement : Parse Unit := do
  if !(← tryEndStatement) then expectQuietly .semicolon

/-! ### Names -/

def isIdentifier : Parse Bool := do
  let c ← context
  match ← token with
  | .identifier => return true
  | .kwYield => return !c.yields
  | .kwAwait => return !c.awaits
  | t => return t.isSoftWord

def isBindingIdentifier : Parse Bool := do
  let t ← token
  return t == .identifier || t.isSoftWord

/-- Take the current token as a name if `allowed`; otherwise note that a name is missing. -/
def takeName (allowed : Bool) : Parse Node := do
  let current ← lexeme
  let named : Parse Node := do
    advanceUnchecked
    return .mk .part (.identifier current.value) current.fullStart (← position) []
  if allowed then named
  else match current.token with
    | .privateIdentifier =>
      reportHere .misplaced
      named
    | .endOfFile => missingNameBefore
    | _ => missingNameHere

def identifier : Parse Node := do takeName (← isIdentifier)

def bindingIdentifier : Parse Node := do takeName (← isBindingIdentifier)

/-- A name where keywords are names too. -/
def identifierName : Parse Node := do takeName (← token).isWord

def unescapedName : Parse Node := do
  if (← lexeme).escaped then reportHere .misplaced
  identifierName

def privateName : Parse Node := do
  let current ← lexeme
  advance
  return .mk .part (.token .privateIdentifier) current.fullStart (← position) []

end LineCensus.Script.Grammar
