import LineCensus.Script.Grammar.Starts

/-!
Lists of members: which tokens begin a member and which end the list, and how reading goes on at a
token that does neither. Such a token is passed over unless an enclosing list knows what to do with
it.
-/

namespace LineCensus.Script.Grammar

/-- Whether a member of a list begins here. While looking for a place to go on after a fault
(`recovering`), fewer tokens count. -/
def isMemberStart (kind : ListKind) (recovering : Bool) : Parse Bool := do
  let t ← token
  match kind with
  | .sourceElements | .blockStatements | .switchClauseStatements =>
    if t == .semicolon && recovering then return false else isStatementStart
  | .switchClauses => return t == .kwCase || t == .kwDefault
  | .typeMembers => isTypeMemberStart
  | .classMembers =>
    if ← isClassMemberStart then return true else return t == .semicolon && !recovering
  | .enumMembers => return t == .openBracket || t.isLiteralPropertyName
  | .objectLiteralMembers =>
    return t == .openBracket || t == .asterisk || t == .dotDotDot || t == .dot ||
      t.isLiteralPropertyName
  | .objectBindingElements =>
    return t == .openBracket || t == .dotDotDot || t.isLiteralPropertyName
  | .importAttributes => return t.isWord || t == .stringLiteral
  | .heritageClauseElements =>
    if t == .openBrace then isHeritageObject
    else
      let fits ← if recovering then isIdentifier else isLeftHandSideStart
      if fits then return !(← isHeritageClauseWord) else return false
  | .variableDeclarations => isBindingStart
  | .arrayBindingElements =>
    if t == .comma || t == .dotDotDot then return true else isBindingStart
  | .typeParameters => if t == .kwIn || t == .kwConst then return true else isIdentifier
  | .arrayLiteralMembers =>
    if t == .comma || t == .dot || t == .dotDotDot then return true else isExpressionStart
  | .argumentExpressions => if t == .dotDotDot then return true else isExpressionStart
  | .parameters => isParameterStart false
  | .docParameters => isParameterStart true
  | .typeArguments | .tupleElements => if t == .comma then return true else isTypeStart
  | .heritageClauses => return isHeritageWord t
  | .importOrExportSpecifiers =>
    if t == .kwFrom then
      if ← next (tokenIs (· == .stringLiteral)) then return false
    return t == .stringLiteral || t.isWord
  | .markupAttributes => return t.isWord || t == .openBrace
  | .markupChildren => return true

def isListEnd (kind : ListKind) : Parse Bool := do
  let t ← token
  if t == .endOfFile then return true
  match kind with
  | .blockStatements | .switchClauses | .typeMembers | .classMembers | .enumMembers
  | .objectLiteralMembers | .objectBindingElements | .importOrExportSpecifiers
  | .importAttributes => return t == .closeBrace
  | .switchClauseStatements => return t == .closeBrace || t == .kwCase || t == .kwDefault
  | .heritageClauseElements => return t == .openBrace || isHeritageWord t
  | .variableDeclarations =>
    if ← canEndStatement then return true
    else return t == .kwIn || t == .kwOf || t == .arrow
  | .typeParameters =>
    return t == .greaterThan || t == .openParen || t == .openBrace || isHeritageWord t
  | .argumentExpressions => return t == .closeParen || t == .semicolon
  | .arrayLiteralMembers | .tupleElements | .arrayBindingElements => return t == .closeBracket
  | .parameters | .docParameters => return t == .closeParen || t == .closeBracket
  | .typeArguments => return t != .comma
  | .heritageClauses => return t == .openBrace || t == .closeBrace
  | .markupAttributes => return t == .greaterThan || t == .slash
  | .markupChildren =>
    if t == .lessThan then next (tokenIs (· == .slash)) else return false
  | .sourceElements => return false

/-- Whether some list that is open begins a member or ends here. -/
def fitsOpenList : List ListKind → Parse Bool
  | [] => return false
  | kind :: kinds => do
    if ← isMemberStart kind true then return true
    if ← isListEnd kind then return true
    fitsOpenList kinds

/-- Deal with a token that fits the list in no way: note the problem, then either leave it to an
enclosing list (the answer is `true`) or pass over it. -/
def passOver : Parse Bool := do
  reportHere .unexpected
  if ← fitsOpenList (← context).lists then return true
  advance
  return false

variable {α : Type}

/-- Repeat a step until it says that it is done, at most as often as the bound allows; a step may
give one result each time. -/
def repeatWithin (step : Parse (Option α × Bool)) : Nat → List α → Parse (List α)
  | 0, gathered => return gathered.reverse
  | bound + 1, gathered => do
    let (result, done) ← step
    let gathered := match result with
      | some r => r :: gathered
      | none => gathered
    if done then return gathered.reverse
    repeatWithin step bound gathered

/-- More steps than any list of members can take. -/
def stepBound : Parse Nat := return 2 * (← source).size + 4

def openingList (kind : ListKind) : Parse α → Parse α :=
  within fun c => { c with lists := kind :: c.lists }

def members (kind : ListKind) (member : Parse Node) : Parse Node :=
  openingList kind do
    let start ← position
    let step : Parse (Option Node × Bool) := do
      if ← isListEnd kind then return (none, true)
      if ← isMemberStart kind false then return (some (← member), false)
      return (none, ← passOver)
    let nodes ← repeatWithin step (← stepBound) []
    finishList start nodes

/-- Read members with commas between them; none as soon as one member cannot be read. A semicolon
may stand for a comma, after the problem has been noted, if `semicolons` holds. -/
def separated? (kind : ListKind) (member : Parse (Option Node)) (semicolons : Bool) :
    Parse (Option Node) :=
  openingList kind do
    let start ← position
    let step : Parse (Option (Option Node) × Bool) := do
      if ← isMemberStart kind false then
        let memberStart ← position
        match ← member with
        | none => return (some none, true)
        | some node =>
          if ← accept .comma then return (some (some node), false)
          if ← isListEnd kind then return (some (some node), true)
          expectQuietly .comma
          if semicolons && (← token) == .semicolon && !(← afterBreak) then advance
          if memberStart == (← position) then advance
          return (some (some node), false)
      if ← isListEnd kind then return (none, true)
      return (none, ← passOver)
    let nodes ← repeatWithin step (← stepBound) []
    match nodes.mapM id with
    | none => return none
    | some nodes => return some (← finishList start nodes)

def separated (kind : ListKind) (member : Parse Node) (semicolons : Bool) :
    Parse Node := do
  match ← separated? kind (some <$> member) semicolons with
  | some list => return list
  | none => missingList

def bracketed (kind : ListKind) (member : Parse Node) (opener closer : Token) : Parse Node := do
  if ← expect opener then
    let list ← separated kind member false
    expectQuietly closer
    return list
  else missingList

end LineCensus.Script.Grammar
