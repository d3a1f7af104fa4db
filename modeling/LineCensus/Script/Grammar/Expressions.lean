import LineCensus.Script.Grammar.Markup

/-!
Expressions. `assignmentStep`, `operatorsStep`, `unaryStep`, `simpleUnaryStep` and `leftHandSideStep`
read the layers that contain each other.
-/

namespace LineCensus.Script.Grammar

/-! ### Literals -/

def spreadElement : Parse Node := do
  let start ← position
  expectQuietly .dotDotDot
  let inner ← assignment
  finish .spread start [inner.as .expression]

def element : Parse Node := do
  match ← token with
  | .dotDotDot => spreadElement
  | .comma =>
    let start ← position
    finish .omitted start []
  | _ => assignment

/-- An argument is read as if no `for` header and no decorator were around it. -/
def argument : Parse Node := allowingIn (decorating false element)

def argumentList : Parse Node := do
  expectQuietly .openParen
  let list ← separated .argumentExpressions argument false
  expectQuietly .closeParen
  return list

def arrayLiteral : Parse Node := do
  let start ← position
  expectQuietly .openBracket
  let list ← separated .arrayLiteralMembers element false
  expectQuietly .closeBracket
  finish .arrayLiteral start [list]

def objectElement : Parse Node := do
  let start ← position
  if ← accept .dotDotDot then
    let inner ← assignment
    return ← finish .spreadProperty start [inner.as .expression]
  let words ← modifiers { decorators := true }
  if let some node ← accessor? start words false then return node
  let asteriskNode ← acceptNode .asterisk
  let isName ← isIdentifier
  let name ← propertyName
  let question ← acceptNode .question
  let exclamation ← acceptNode .exclamation
  if asteriskNode.isSome || isOpenParenOrLessThan (← token) then
    return ← method start words asteriskNode name question exclamation
  let before := optional .modifiers words ++ [name.as .name] ++ optional .question question
    ++ optional .part exclamation
  if isName && (← token) != .colon then
    let equalsNode ← acceptNode .equals
    let initial ← if equalsNode.isSome then some <$> allowingIn assignment else pure none
    finish .shorthandProperty start
      (before ++ optional .part equalsNode ++ optional .expression initial)
  else
    expectQuietly .colon
    let initial ← allowingIn assignment
    finish .propertyAssignment start (before ++ [initial.as .initializer])

def objectLiteral : Parse Node := do
  let start ← position
  expectQuietly .openBrace
  let list ← separated .objectLiteralMembers objectElement true
  expectQuietly .closeBrace
  finish .objectLiteral start [list]

def parenthesized : Parse Node := do
  let start ← position
  expectQuietly .openParen
  let inner ← allowingIn expression
  expectQuietly .closeParen
  finish .parenthesized start [inner.as .expression]

def templateExpression (tagged : Bool) : Parse Node := do
  let start ← position
  let head ← templateHead tagged
  let span : Parse Node := do
    let first ← position
    let inner ← allowingIn expression
    let piece ← templatePiece tagged
    finish .templateSpan first [inner, piece]
  let spans ← templateSpans span
  finish .template start [head, spans]

/-! ### Functions and classes -/

def functionExpression : Parse Node :=
  decorating false do
    let start ← position
    let words ← modifiers {}
    expectQuietly .kwFunction
    let asteriskNode ← acceptNode .asterisk
    let flavor : Flavor := { yields := asteriskNode.isSome, awaits := hasModifier .kwAsync words }
    let name ← if ← isBindingIdentifier then some <$> takeName true else pure none
    let typeParams ← typeParameters?
    let params ← parameters flavor
    let result ← resultType? false
    let body ← functionBlock flavor
    finish .functionExpression start
      (optional .modifiers words ++ optional .part asteriskNode ++ optional .name name
        ++ optional .typeParameters typeParams ++ [params] ++ optional .type result
        ++ [body.as .body])

def missingDeclaration (start : Nat) (words : Option Node) : Parse Node := do
  let here ← position
  reportAt here .unexpected
  return .mk .part (.form .missingDeclaration .plain) start here (optional .modifiers words)

def decoratedExpression : Parse Node := do
  let start ← position
  let words ← modifiers { decorators := true }
  if (← token) == .kwClass then classLike .classExpression start words
  else missingDeclaration start words

/-! ### Members and calls -/

/-- Whether an expression is a link of an optional chain. Assertions that a value is present do not
end a chain. -/
def inOptionalChain : Node → Bool
  | .mk _ label _ _ children =>
    match label, children with
    | .form .nonNull _, inner :: _ => inOptionalChain inner
    | .form _ .optionalChain, _ => true
    | _, _ => false

def chainMark (chained : Bool) : Mark := if chained then .optionalChain else .plain

/-- Type arguments in an expression; none if what stands here is a comparison. -/
def expressionTypeArguments? : Parse (Option Node) := do
  if (← dialect).untyped then return none
  resize Lexeme.splitLess
  if (← token) != .lessThan then return none
  advance
  let list ← separated .typeArguments (goal .type) false
  resize (Lexeme.mergeGreater (← source))
  if (← token) != .greaterThan then return none
  advance
  let follows ← match ← token with
    | .openParen | .plainTemplate | .templateHead => pure true
    | .lessThan | .greaterThan | .plus | .minus => pure false
    | _ =>
      if ← afterBreak then pure true
      else if ← isBinaryOperator then pure true
      else not <$> isExpressionStart
  if follows then return some (list.as .typeArguments) else return none

def startsTemplate : Parse Bool := tokenIs Token.isTemplateStart

def taggedTemplateRest (start : Nat) (tag : Node) (question arguments : Option Node) :
    Parse Node := do
  let template ←
    if (← token) == .plainTemplate then do
      reread fun source => Lexeme.asTemplate source false
      literal
    else templateExpression true
  finishMarked .taggedTemplate (chainMark (question.isSome || inOptionalChain tag)) start
    ([tag.as .expression] ++ optional .question question ++ optional .typeArguments arguments
      ++ [template])

def propertyAccessRest (start : Nat) (object : Node) (question : Option Node) : Parse Node := do
  let name ← nameAfterDot true true true
  let chained := question.isSome || inOptionalChain object
  if chained && name.isToken .privateIdentifier then reportAt name.start .misplaced
  if object.hasForm .instantiation then
    if let some arguments := object.child? .typeArguments then
      reportAt (arguments.start - 1) .misplaced
  finishMarked .propertyAccess (chainMark chained) start
    ([object.as .expression] ++ optional .question question ++ [name.as .name])

def elementAccessRest (start : Nat) (object : Node) (question : Option Node) : Parse Node := do
  let index ←
    if (← token) == .closeBracket then missingNameBefore else allowingIn expression
  expectQuietly .closeBracket
  finishMarked .elementAccess (chainMark (question.isSome || inOptionalChain object)) start
    ([object.as .expression] ++ optional .question question ++ [index])

/-- What an expression is before its type arguments, and those arguments. -/
def splitInstantiation (node : Node) : Node × Option Node :=
  if node.hasForm .instantiation then
    ((node.child? .expression).getD node, node.child? .typeArguments)
  else (node, none)

/-- One more access, template or instantiation behind an expression; none if there is no more. -/
def memberStep? (start : Nat) (object : Node) (chainsAllowed : Bool) : Parse (Option Node) := do
  let opensChain ←
    if chainsAllowed && (← token) == .questionDot then
      next (tokenIs fun t => t.isWord || t == .openBracket || t.isTemplateStart)
    else pure false
  let question ← if opensChain then acceptNode .questionDot else pure none
  let isProperty ← if opensChain then tokenIs Token.isWord else accept .dot
  if isProperty then return some (← propertyAccessRest start object question)
  let decorates := (← context).decorates
  if (opensChain || !decorates) && (← token) == .openBracket then
    advance
    return some (← elementAccessRest start object question)
  if ← startsTemplate then
    if opensChain then return some (← taggedTemplateRest start object question none)
    let (tag, arguments) := splitInstantiation object
    return some (← taggedTemplateRest start tag question arguments)
  if opensChain then return none
  if (← token) == .exclamation && !(← afterBreak) then
    advance
    return some (← finish .nonNull start [object.as .expression])
  match ← attempt expressionTypeArguments? with
  | some arguments =>
    return some (← finish .instantiation start [object.as .expression, arguments])
  | none => return none

def memberRest (start : Nat) (chainsAllowed : Bool) : Nat → Node → Parse Node
  | 0, object => return object
  | bound + 1, object => do
    match ← memberStep? start object chainsAllowed with
    | some object => memberRest start chainsAllowed bound object
    | none => return object

def callRest (start : Nat) : Nat → Node → Parse Node
  | 0, callee => return callee
  | bound + 1, callee => do
    let callee ← memberRest start true (← stepBound) callee
    let question ← acceptNode .questionDot
    let arguments ←
      if question.isSome then attempt expressionTypeArguments? else pure none
    let tagged ← if question.isSome then startsTemplate else pure false
    if tagged then
      callRest start bound (← taggedTemplateRest start callee question arguments)
    else if arguments.isSome || (← token) == .openParen then
      let (function, arguments) :=
        if question.isNone then
          let (inner, own) := splitInstantiation callee
          (inner, own.or arguments)
        else (callee, arguments)
      let list ← argumentList
      let mark := chainMark (question.isSome || inOptionalChain function)
      callRest start bound (← finishMarked .call mark start
        ([function.as .expression] ++ optional .question question
          ++ optional .typeArguments arguments ++ [list]))
    else if question.isSome then
      let name ← missingNameHere
      finishMarked .propertyAccess .optionalChain start
        ([callee.as .expression] ++ optional .question question ++ [name.as .name])
    else return callee

/-! ### Primary expressions -/

/-- The expression that stands behind `new`, before its arguments, is read by `primary` below. -/
def newRest (primary : Parse Node) : Parse Node := do
  let start ← position
  expectQuietly .kwNew
  if ← accept .dot then
    let name ← identifierName
    finish .newTarget start [name.as .name]
  else
    let first ← position
    let object ← memberRest first false (← stepBound) (← primary)
    let (constructor, arguments) := splitInstantiation object
    if (← token) == .questionDot then reportHere .misplaced
    let list ← if (← token) == .openParen then some <$> argumentList else pure none
    finish .newExpression start
      ([constructor.as .expression] ++ optional .typeArguments arguments ++ optional .part list)

/-- A slash opens a regular expression. -/
def pattern : Parse Node := do
  reread Lexeme.asPattern
  literal

/-- The expressions that are built from no other in front. Operands of `new` nest up to the bound. -/
def primaryWithin : Nat → Parse Node
  | 0 => missingNameHere
  | bound + 1 => do
    match ← token with
    | .plainTemplate =>
      if (← lexeme).invalid then reread fun source => Lexeme.asTemplate source true
      literal
    | .numericLiteral | .bigIntLiteral | .stringLiteral => literal
    | .kwThis | .kwSuper | .kwNull | .kwTrue | .kwFalse => takeToken
    | .openParen => parenthesized
    | .openBracket => arrayLiteral
    | .openBrace => objectLiteral
    | .kwAsync =>
      if ← next (do return (← token) == .kwFunction && (← onSameLine)) then functionExpression
      else identifier
    | .at => decoratedExpression
    | .kwClass => do classLike .classExpression (← position) none
    | .kwFunction => functionExpression
    | .kwNew => newRest (primaryWithin bound)
    | .slash | .slashEquals => pattern
    | .templateHead => templateExpression false
    | .privateIdentifier => privateName
    | _ => identifier

def primary : Parse Node := do primaryWithin (← stepBound)

/-- `super` and what has to follow it. Type arguments are not allowed here: they are noted, and the
node that holds them has no place in the text. -/
def superExpression : Parse Node := do
  let start ← position
  let super ← takeToken
  let argumentsStart ← position
  let arguments ←
    if (← token) == .lessThan then attempt expressionTypeArguments? else pure none
  let object ←
    match arguments with
    | some arguments => do
      reportAt argumentsStart .misplaced
      if ← startsTemplate then pure super
      else pure (Node.unplaced .instantiation [super.as .expression, arguments])
    | none => pure super
  match ← token with
  | .openParen | .dot | .openBracket => return object
  | _ =>
    discard (expectNode .dot (.missing .dot))
    let name ← nameAfterDot true true true
    finish .propertyAccess start [object.as .expression, name.as .name]

def leftHandSideStep : Parse Node := do
  let start ← position
  let bound ← stepBound
  let c ← context
  match ← token with
  | .kwAwait =>
    if c.decorates && c.awaits then
      let missing ← missingNameHere
      advance
      let object ← memberRest start true bound missing
      callRest start bound object
    else callRest start bound (← memberRest start true bound (← primary))
  | .kwImport =>
    let follower ← next token
    if isOpenParenOrLessThan follower then callRest start bound (← takeToken)
    else if follower == .dot then
      advance
      advance
      let name ← identifierName
      callRest start bound (← finish .importMeta start [name.as .name])
    else callRest start bound (← memberRest start true bound (← primary))
  | .kwSuper => callRest start bound (← superExpression)
  | _ => callRest start bound (← memberRest start true bound (← primary))

/-! ### Operators -/

def isLeftHandSide (node : Node) : Bool :=
  match node.label with
  | .identifier _ => true
  | .token t =>
    match t with
    | .privateIdentifier | .regularExpression | .numericLiteral | .bigIntLiteral
    | .stringLiteral | .plainTemplate | .kwFalse | .kwNull | .kwThis | .kwTrue | .kwSuper
    | .kwImport => true
    | _ => false
  | .list _ => false
  | .form form _ =>
    match form with
    | .propertyAccess | .elementAccess | .newExpression | .call | .markupElement
    | .markupSelfClosing | .markupFragment | .taggedTemplate | .arrayLiteral | .parenthesized
    | .objectLiteral | .classExpression | .functionExpression | .template | .nonNull
    | .instantiation | .importMeta | .newTarget | .missingDeclaration => true
    | _ => false

/-- An operand with `++` or `--` in front or behind, or neither. -/
def updateExpression : Parse Node := do
  let start ← position
  let markup := (← dialect).markup
  match ← token with
  | .plusPlus | .minusMinus =>
    advance
    let inner ← goal .leftHandSide
    finish .prefixUnary start [inner.as .expression]
  | t =>
    let opensElement ←
      if markup && t == .lessThan then
        next (tokenIs fun t => t.isWord || t == .greaterThan)
      else pure false
    if opensElement then goal (.markup true none none false)
    else
      let inner ← goal .leftHandSide
      match ← token with
      | .plusPlus | .minusMinus =>
        if ← afterBreak then return inner
        advance
        finish .postfixUnary inner.start [inner.as .expression]
      | _ => return inner

def prefixed (form : Form) : Parse Node := do
  let start ← position
  advance
  let inner ← goal .simpleUnary
  finish form start [inner.as .expression]

/-- Whether `await` is an operator here: by the context, or because an operand follows. -/
def isAwaitOperator : Parse Bool := do
  if (← context).awaits then return true else isWordNextOnLine true

def simpleUnaryStep : Parse Node := do
  match ← token with
  | .plus | .minus | .tilde | .exclamation => prefixed .prefixUnary
  | .kwDelete => prefixed .deleteExpression
  | .kwTypeof => prefixed .typeofExpression
  | .kwVoid => prefixed .voidExpression
  | .lessThan =>
    if (← dialect).markup then goal (.markup true none none true)
    else
      let start ← position
      expectQuietly .lessThan
      let type ← goal .type
      expectQuietly .greaterThan
      let inner ← goal .simpleUnary
      finish .typeAssertion start [type, inner.as .expression]
  | .kwAwait => if ← isAwaitOperator then prefixed .awaitExpression else updateExpression
  | _ => updateExpression

/-- Further operators that bind more tightly than a precedence, with their right operands. -/
def operatorsRest (precedence start : Nat) : Nat → Node → Parse Node
  | 0, left => return left
  | bound + 1, left => do
    resize (Lexeme.mergeGreater (← source))
    let operator ← token
    let own := operator.precedence
    let binds :=
      if operator == .asteriskAsterisk then decide (precedence ≤ own)
      else decide (precedence < own)
    if !binds then return left
    if operator == .kwIn && (← context).withoutIn then return left
    if operator == .kwAs || operator == .kwSatisfies then
      if ← afterBreak then return left
      advance
      let type ← goal .type
      let form := if operator == .kwAs then Form.asExpression else .satisfiesExpression
      operatorsRest precedence start bound (← finish form left.start [left, type])
    else
      let sign ← takeToken
      let right ← goal (.operators own)
      operatorsRest precedence start bound (← finish .binary start [left, sign, right])

def operatorsStep (precedence : Nat) : Parse Node := do
  let start ← position
  let left ← goal .unary
  operatorsRest precedence start (← stepBound) left

/-- An operand: only one without a prefix operator may be raised to a power. -/
def unaryStep : Parse Node := do
  let prefixedHere ← match ← token with
    | .plus | .minus | .tilde | .exclamation | .kwDelete | .kwTypeof | .kwVoid | .kwAwait =>
      pure true
    | .lessThan => pure (!(← dialect).markup)
    | _ => pure false
  if prefixedHere then
    let inner ← goal .simpleUnary
    if (← token) == .asteriskAsterisk then
      let text ← source
      reportAt (text.skipTrivia inner.start) .misplaced
    return inner
  else
    let start ← position
    let inner ← updateExpression
    if (← token) == .asteriskAsterisk then
      operatorsRest Token.asteriskAsterisk.precedence start (← stepBound) inner
    else return inner

/-! ### Arrow functions -/

/-- How sure it is that an arrow function begins at a place. -/
inductive Likelihood where
  | no
  | perhaps
  | yes
  deriving DecidableEq

def arrowLikelihood : Parse Likelihood :=
  peek do
    if (← token) == .kwAsync then
      advance
      if ← afterBreak then return .no
      if !isOpenParenOrLessThan (← token) then return .no
    let first ← token
    advance
    let second ← token
    if first == .openParen then
      match second with
      | .closeParen =>
        advance
        match ← token with
        | .arrow | .colon | .openBrace => return .yes
        | _ => return .no
      | .openBracket | .openBrace => return .perhaps
      | .dotDotDot => return .yes
      | _ =>
        if second.isModifier && second != .kwAsync then
          if ← next isIdentifier then
            advance
            if (← token) == .kwAs then return .no else return .yes
        if second != .kwThis && !(← isIdentifier) then return .no
        advance
        match ← token with
        | .colon => return .yes
        | .question =>
          advance
          match ← token with
          | .colon | .comma | .equals | .closeParen => return .yes
          | _ => return .no
        | .comma | .equals | .closeParen => return .perhaps
        | _ => return .no
    else
      if second != .kwConst && !(← isIdentifier) then return .no
      if !(← dialect).markup then return .perhaps
      discard (accept .kwConst)
      advance
      match ← token with
      | .kwExtends =>
        advance
        match ← token with
        | .equals | .greaterThan | .slash => return .no
        | _ => return .yes
      | .comma | .equals => return .yes
      | _ => return .no

mutual

/-- Whether a type lacks what only an arrow function's result type would have. -/
def blocksArrow : Node → Bool
  | .mk _ label _ _ children =>
    match label, children with
    | .form .typeReference _, name :: _ => name.isEmpty
    | .form .functionType _, children => anyMissing children
    | .form .constructorType _, children => anyMissing children
    | .form .parenthesizedType _, inner :: _ => blocksArrow inner
    | _, _ => false

/-- Whether a part of a function type is missing: the parameters, or what blocks in its result. -/
def anyMissing : List Node → Bool
  | [] => false
  | part :: rest =>
    (part.role == .parameters && part.isMissingList)
      || (part.role == .type && blocksArrow part) || anyMissing rest

end

def unwrapType : Node → Node
  | .mk role label start stop children =>
    match label, children with
    | .form .parenthesizedType _, [inner] => unwrapType inner
    | _, _ => .mk role label start stop children

def arrowBody (isAsync returnTypeAllowed : Bool) : Parse Node := do
  let t ← token
  if t == .openBrace then functionBlock { awaits := isAsync }
  else
    let isStatement ←
      if t == .semicolon || t == .kwFunction || t == .kwClass then pure false
      else if ← isStatementStart then not <$> isExpressionStatementStart
      else pure false
    if isStatement then functionBlock { awaits := isAsync, braceOptional := true }
    else yielding false (awaiting isAsync (goal (.assignment returnTypeAllowed)))

/-- An arrow function with parentheses around its parameters. If it is not `certain` that one stands
here, anything that does not fit means there is none. -/
def parenthesizedArrow? (certain returnTypeAllowed : Bool) : Parse (Option Node) := do
  let start ← position
  let words ← asyncModifier
  let isAsync := words.isSome
  let typeParams ← typeParameters?
  let opened ← expect .openParen
  if !opened && !certain then return none
  let params ←
    if opened then parameterList? { awaits := isAsync } certain
    else some <$> missingList
  let some params := params | return none
  if opened then
    let closed ← expect .closeParen
    if !closed && !certain then return none
  let hasColon := (← token) == .colon
  let result ← resultType? false
  if !certain && (result.map blocksArrow).getD false then return none
  let documented := (result.map fun type => (unwrapType type).hasForm .docFunctionType).getD false
  let last ← token
  if !certain && last != .arrow && (documented || last != .openBrace) then return none
  let arrowNode ← expectNode .arrow (.missing .arrow)
  let body ←
    if last == .arrow || last == .openBrace then arrowBody isAsync returnTypeAllowed
    else identifier
  if !returnTypeAllowed && hasColon && (← token) != .colon then return none
  return some (← finish .arrowFunction start
    (optional .modifiers words ++ optional .typeParameters typeParams ++ [params.as .parameters]
      ++ optional .type result ++ [arrowNode, body.as .body]))

/-- Try to read an arrow function with parentheses. A place where that failed is remembered. -/
def possibleArrow? (returnTypeAllowed : Bool) : Parse (Option Node) := do
  let here := (← lexeme).start
  if (← get).refuted.contains here then return none
  match ← parenthesizedArrow? false returnTypeAllowed with
  | some node => return some node
  | none =>
    modify fun s => { s with refuted := here :: s.refuted }
    return none

def arrowWithParentheses? (returnTypeAllowed : Bool) : Parse (Option Node) := do
  match ← token with
  | .openParen | .lessThan | .kwAsync =>
    match ← arrowLikelihood with
    | .no => return none
    | .yes => parenthesizedArrow? true true
    | .perhaps => attempt (possibleArrow? returnTypeAllowed)
  | .arrow => parenthesizedArrow? true true
  | _ => return none

/-- An arrow function whose only parameter is a name, from the arrow on. -/
def simpleArrow (start : Nat) (name : Node) (words : Option Node) (returnTypeAllowed : Bool) :
    Parse Node := do
  let parameter : Node := .mk .part (.form .parameter .plain) name.start (← position)
    [name.as .name]
  let list : Node := .mk .parameters (.list true) parameter.start parameter.stop [parameter]
  let arrowNode ← expectNode .arrow (.missing .arrow)
  let body ← arrowBody words.isSome returnTypeAllowed
  finish .arrowFunction start (optional .modifiers words ++ [list, arrowNode, body.as .body])

def asyncSimpleArrow? (returnTypeAllowed : Bool) : Parse (Option Node) := do
  if (← token) != .kwAsync then return none
  let fits ← next do
    if (← afterBreak) || (← token) == .arrow then return false
    let operand ← goal (.operators 0)
    return (← onSameLine) && operand.isIdentifier && (← token) == .arrow
  if !fits then return none
  let start ← position
  let words ← asyncModifier
  let name ← goal (.operators 0)
  return some (← simpleArrow start name words returnTypeAllowed)

/-! ### Assignments -/

def isYieldOperator : Parse Bool := do
  if (← token) != .kwYield then return false
  if (← context).yields then return true
  isWordNextOnLine true

def yieldExpression : Parse Node := do
  let start ← position
  advance
  let hasOperand ←
    if ← afterBreak then pure false
    else if (← token) == .asterisk then pure true
    else isExpressionStart
  if hasOperand then
    let asteriskNode ← acceptNode .asterisk
    let inner ← assignment
    finish .yieldExpression start (optional .part asteriskNode ++ [inner.as .expression])
  else finish .yieldExpression start []

def conditionalRest (condition : Node) (start : Nat) (returnTypeAllowed : Bool) : Parse Node := do
  match ← acceptNode .question with
  | none => return condition
  | some question =>
    let whenTrue ← allowingIn (decorating false (goal (.assignment false)))
    let colon ← expectNode .colon (.missing .colon)
    let whenFalse ←
      if colon.isEmpty then missingNameHere else goal (.assignment returnTypeAllowed)
    finish .conditional start [condition, question, whenTrue, colon, whenFalse]

def assignmentStep (returnTypeAllowed : Bool) : Parse Node := do
  if ← isYieldOperator then return ← yieldExpression
  if let some arrow ← arrowWithParentheses? returnTypeAllowed then return arrow
  if let some arrow ← asyncSimpleArrow? returnTypeAllowed then return arrow
  let start ← position
  let left ← goal (.operators 0)
  if left.isIdentifier && (← token) == .arrow then
    return ← simpleArrow start left none returnTypeAllowed
  if isLeftHandSide left then
    resize (Lexeme.mergeGreater (← source))
    if (← token).isAssignment then
      let sign ← takeToken
      let right ← goal (.assignment returnTypeAllowed)
      return ← finish .binary start [left, sign, right]
  conditionalRest left start returnTypeAllowed

end LineCensus.Script.Grammar
