import LineCensus.Script.Grammar.Classes

/-!
Markup elements inside expressions.
-/

namespace LineCensus.Script.Grammar

def advanceInMarkup : Parse Unit := do
  let text ← source
  install (Lexeme.scanMarkup text (← lexeme).stop)

def rereadInMarkup : Parse Token := do
  let text ← source
  install (Lexeme.scanMarkup text (← lexeme).fullStart)
  token

/-- Leave a tag: what follows it is an expression's next token, or text of the element around. -/
def leaveTag (inExpression : Bool) : Parse Unit := do
  if inExpression then advance else advanceInMarkup

def expectTagEnd (inExpression : Bool) : Parse Unit := do
  if (← token) == .greaterThan then leaveTag inExpression
  else reportHere (.missing .greaterThan)

/-! ### Names -/

def markupName : Parse Node := do
  reread Lexeme.asMarkupName
  unescapedName

def namespacedName : Parse Node := do
  let start ← position
  let first ← markupName
  if ← accept .colon then
    let second ← markupName
    finish .markupNamespacedName start [first, second]
  else return first

/-- The rest of a tag name that goes through the properties of an object. -/
def tagNameRest (start : Nat) : Nat → Node → Parse Node
  | 0, left => return left
  | bound + 1, left => do
    if !(← accept .dot) then return left
    let right ← nameAfterDot true false false
    tagNameRest start bound (← finish .propertyAccess start [left.as .expression, right.as .name])

def tagName : Parse Node := do
  let start ← position
  reread Lexeme.asMarkupName
  let isThis := (← token) == .kwThis
  let first ← namespacedName
  if first.hasForm .markupNamespacedName then return first
  let first : Node :=
    if isThis then .mk .part (.token .kwThis) first.start first.stop [] else first
  tagNameRest start (← stepBound) first

def sameTagName : Node → Node → Bool
  | .mk _ label _ _ children, .mk _ label' _ _ children' =>
    match label, label' with
    | .identifier name, .identifier name' => name == name'
    | .token _, .token _ => label == label'
    | .form .markupNamespacedName _, .form .markupNamespacedName _ =>
      children.map Node.name == children'.map Node.name
    | .form .propertyAccess _, .form .propertyAccess _ =>
      match children, children' with
      | [object, name], [object', name'] =>
        name.name == name'.name && sameTagName object object'
      | _, _ => false
    | _, _ => false

/-! ### Attributes -/

def markupExpression? (inExpression : Bool) : Parse (Option Node) := do
  let start ← position
  if !(← expect .openBrace) then return none
  let inner ←
    if (← token) == .closeBrace then pure []
    else do
      let dots ← if inExpression then pure none else acceptNode .dotDotDot
      pure (optional .part dots ++ [(← expression).as .expression])
  if inExpression then expectQuietly .closeBrace
  else if (← token) == .closeBrace then advanceInMarkup
  else reportHere (.missing .closeBrace)
  return some (← finish .markupExpression start inner)

def attributeValue? : Parse (Option Node) := do
  if (← token) != .equals then return none
  let text ← source
  let d ← dialect
  install (Lexeme.markupValue text d (← lexeme))
  match ← token with
  | .stringLiteral => return some (← literal)
  | .openBrace => markupExpression? true
  | .lessThan => return some (← goal (.markup true none none false))
  | _ =>
    reportHere .unexpected
    return none

def markupAttribute : Parse Node := do
  let start ← position
  if (← token) == .openBrace then
    expectQuietly .openBrace
    expectQuietly .dotDotDot
    let inner ← expression
    expectQuietly .closeBrace
    finish .markupSpreadAttribute start [inner.as .expression]
  else
    let name ← namespacedName
    let value ← attributeValue?
    finish .markupAttribute start ([name.as .name] ++ optional .initializer value)

/-! ### Tags -/

/-- An opening tag, an element without content, or the start of a fragment. -/
def openingTag (inExpression : Bool) : Parse Node := do
  let start ← position
  expectQuietly .lessThan
  if (← token) == .greaterThan then
    advanceInMarkup
    finish .markupOpeningFragment start []
  else
    let name ← tagName
    let arguments ← if (← dialect).untyped then pure none else typeArguments?
    let attributesStart ← position
    let list ← members .markupAttributes markupAttribute
    let attributes ← finish .markupAttributes attributesStart [list]
    let parts := [name.as .name] ++ optional .typeArguments arguments ++ [attributes]
    if (← token) == .greaterThan then
      advanceInMarkup
      finish .markupOpening start parts
    else
      expectQuietly .slash
      expectTagEnd inExpression
      finish .markupSelfClosing start parts

/-- The name in a tag; a missing one if it has none. -/
def nameOfTag (tag : Node) : Node := (tag.child? .name).getD default

def elementNames (element : Node) : Option (Node × Node) := do
  guard (element.hasForm .markupElement)
  let opening ← element.child? .opening
  let closing ← element.child? .closing
  return (nameOfTag opening, nameOfTag closing)

/-- Whether an element lacks its own closing tag and has taken that of the element around it, whose
name is given. -/
def tookClosingTag (outer : Node) (element : Node) : Bool :=
  match elementNames element with
  | some (own, closing) => !sameTagName own closing && sameTagName outer closing
  | none => false

def noteUnclosed (opening : Node) : Parse Unit := do
  if opening.hasForm .markupOpeningFragment then reportAt opening.start .misplaced
  else
    let name := nameOfTag opening
    let text ← source
    reportAt (min (text.skipTrivia name.start) name.stop) .misplaced

def markupChildren (opening : Node) : Parse Node :=
  openingList .markupChildren do
    let start ← position
    let step : Parse (Option Node × Bool) := do
      match ← rereadInMarkup with
      | .endOfFile =>
        noteUnclosed opening
        return (none, true)
      | .jsxText =>
        let first ← position
        advanceInMarkup
        return (some (.mk .part (.token .jsxText) first (← position) []), false)
      | .openBrace =>
        match ← markupExpression? false with
        | some node => return (some node, false)
        | none => return (none, true)
      | .lessThan =>
        let parent := if opening.hasForm .markupOpening then some opening else none
        let child ← goal (.markup false none (some opening) false)
        return (some child, parent.any fun tag => tookClosingTag (nameOfTag tag) child)
      | _ => return (none, true)
    let children ← repeatWithin step (← stepBound) []
    finishList start children

def closingTag (opening : Node) (inExpression : Bool) : Parse Node := do
  let start ← position
  expectQuietly .lessThanSlash
  let name ← tagName
  expectTagEnd (inExpression || !sameTagName (nameOfTag opening) name)
  finish .markupClosing start [name.as .name]

def closingFragment (inExpression : Bool) : Parse Node := do
  let start ← position
  expectQuietly .lessThanSlash
  expectTagEnd inExpression
  finish .markupClosingFragment start []

/-- Give the closing tag that the last child has taken back to the element it belongs to. -/
def returnClosingTag (list last : Node) : Node × Option Node :=
  match last with
  | .mk role label start _ parts =>
    let stop := ((last.child? .children).map Node.stop).getD start
    let empty : Node := .mk .part (.identifier "") stop stop []
    let standIn : Node :=
      .mk .closing (.form .markupClosing .plain) stop stop [empty.as .name]
    let closing := parts.find? fun part => part.role == .closing
    let kept := parts.filter fun part => part.role != .closing
    let repaired : Node := .mk role label start stop (kept ++ [standIn])
    (.mk list.role list.label list.start stop (list.children.dropLast ++ [repaired]), closing)

def elementRest (start : Nat) (opening : Node) (inExpression : Bool) (parent : Option Node) :
    Parse Node := do
  let list ← markupChildren opening
  let name := nameOfTag opening
  let finishWith (list closing : Node) : Parse Node :=
    finish .markupElement start
      [opening.as .opening, list.as .children, closing.as .closing]
  match list.children.getLast? with
  | some last =>
    if tookClosingTag name last then
      let (list, closing) := returnClosingTag list last
      return ← finishWith list (closing.getD default)
  | none => pure ()
  let closing ← closingTag opening inExpression
  let closingName := nameOfTag closing
  if !sameTagName name closingName then
    let outerClosed := parent.any fun tag =>
      tag.hasForm .markupOpening && sameTagName closingName (nameOfTag tag)
    reportAt (if outerClosed then name.start else closingName.start) .misplaced
  finishWith list closing

/-- A markup element. Several elements without a common parent are joined as if with commas, which
is noted; an operand is not joined to what follows it. -/
def markupStep (inExpression : Bool) (firstStart : Option Nat) (parent : Option Node)
    (isOperand : Bool) : Parse Node := do
  let start ← position
  let opening ← openingTag inExpression
  let result ←
    if opening.hasForm .markupOpening then elementRest start opening inExpression parent
    else if opening.hasForm .markupOpeningFragment then do
      let list ← markupChildren opening
      let closing ← closingFragment inExpression
      finish .markupFragment start
        [opening.as .opening, list.as .children, closing.as .closing]
    else pure opening
  if !isOperand && inExpression && (← token) == .lessThan then
    let first := firstStart.getD result.start
    let other ← goal (.markup true (some first) none false)
    let comma : Node := .mk .part (.token .comma) other.start other.start []
    let text ← source
    reportAt (text.skipTrivia first) .misplaced
    return ← finish .binary start [result, comma, other]
  return result

end LineCensus.Script.Grammar
