import LineCensus.Script.Grammar.Signatures

/-!
Types. `typeStep`, `typeOperatorStep` and `plainTypeStep` read the three layers that contain each
other: whole types, operands of `|` and `&`, and types without suffixes.
-/

namespace LineCensus.Script.Grammar

/-! ### Function types -/

/-- Go past the start of a parameter: modifiers and a name, or a pattern without faults. -/
def skipParameterStart : Parse Bool := do
  if (← token).isModifier then discard (modifiers {})
  if (← token) == .kwThis then
    advance
    return true
  if ← isIdentifier then
    advance
    return true
  match ← token with
  | .openBracket | .openBrace =>
    let before := (← get).problems.length
    discard binding
    return before == (← get).problems.length
  | _ => return false

/-- Whether the parenthesis at hand certainly opens the parameters of a function type. -/
def opensFunctionType : Parse Bool :=
  next do
    match ← token with
    | .closeParen | .dotDotDot => return true
    | _ =>
      if !(← skipParameterStart) then return false
      match ← token with
      | .colon | .comma | .question | .equals => return true
      | .closeParen =>
        advance
        return (← token) == .arrow
      | _ => return false

def isFunctionTypeStart : Parse Bool := do
  match ← token with
  | .lessThan | .kwNew => return true
  | .openParen => opensFunctionType
  | .kwAbstract => next (tokenIs (· == .kwNew))
  | _ => return false

def functionType : Parse Node := do
  let start ← position
  let words ←
    if (← token) == .kwAbstract then do
      let word ← takeToken
      pure [(← finishList start [word]).as .modifiers]
    else pure []
  let constructs ← accept .kwNew
  let typeParams ← typeParameters?
  let params ← parameters { inType := true }
  let result ← arrowResultType
  finish (if constructs then .constructorType else .functionType) start
    (words ++ optional .typeParameters typeParams ++ [params, result.as .type])

/-! ### References, literals and import types -/

/-- Type arguments, if they begin on the same line. -/
def referenceArguments? : Parse (Option Node) := do
  if ← afterBreak then return none
  resize Lexeme.splitLess
  if (← token) == .lessThan then
    return some ((← bracketed .typeArguments (goal .type) .lessThan .greaterThan).as
      .typeArguments)
  else return none

/-- Type arguments that stand where an expression could go on with a comparison only if there are
none. -/
def typeArguments? : Parse (Option Node) := do
  if (← token) == .lessThan then
    return some ((← bracketed .typeArguments (goal .type) .lessThan .greaterThan).as
      .typeArguments)
  else return none

def typeReference : Parse Node := do
  let start ← position
  let name ← qualifiedName true
  let arguments ← referenceArguments?
  finish .typeReference start ([name.as .name] ++ optional .typeArguments arguments)

/-- The word of a built-in type; it is the start of a qualified name when a dot follows. -/
def wordType : Parse Node := do
  let plain? : Parse (Option Node) := do
    let node ← takeToken
    if (← token) == .dot then return none else return some node
  match ← attempt plain? with
  | some node => return node
  | none => typeReference

def literalType (negative : Bool) : Parse Node := do
  let start ← position
  if negative then advance
  let inner ← takeToken
  let inner ← if negative then finish .prefixUnary start [inner] else pure inner
  finish .literalType start [inner]

def importAttributeList (start : Nat) : Parse Node := do
  if ← expect .openBrace then
    let entry : Parse Node := do
      let first ← position
      let name ← if (← token).isWord then identifierName else takeToken
      expectQuietly .colon
      let value ← assignment
      finish .importAttribute first [name.as .name, value]
    let list ← separated .importAttributes entry true
    expectQuietly .closeBrace
    finish .importAttributes start [list]
  else
    let here ← position
    finish .importAttributes start [← finishList here []]

def importType : Parse Node := do
  let start ← position
  discard (accept .kwTypeof)
  expectQuietly .kwImport
  expectQuietly .openParen
  let argument ← goal .type
  let attributes ←
    if ← accept .comma then do
      expectQuietly .openBrace
      match ← token with
      | .kwWith | .kwAssert => advance
      | _ => reportHere (.missing .kwWith)
      expectQuietly .colon
      let list ← importAttributeList (← position)
      discard (accept .comma)
      expectQuietly .closeBrace
      pure [list]
    else pure []
  expectQuietly .closeParen
  let qualifier ← if ← accept .dot then pure [← qualifiedName true] else pure []
  let arguments ← referenceArguments?
  finish .importType start
    ([argument] ++ attributes ++ qualifier ++ optional .typeArguments arguments)

def thisType : Parse Node := do
  let start ← position
  advance
  let this ← finish .thisType start []
  if (← token) == .kwIs && (← onSameLine) then
    advance
    let type ← goal .type
    finish .typePredicate start [this, type]
  else return this

def typeQuery : Parse Node := do
  let start ← position
  expectQuietly .kwTypeof
  let name ← qualifiedName true
  let arguments ← if ← afterBreak then pure none else typeArguments?
  finish .typeQuery start ([name.as .name] ++ optional .typeArguments arguments)

def assertion : Parse Node := do
  let start ← position
  let word ← expectNode .kwAsserts (.missing .kwAsserts)
  let subject ←
    if (← token) == .kwThis then do
      let first ← position
      advance
      finish .thisType first []
    else identifier
  let type ← if ← accept .kwIs then pure [← goal .type] else pure []
  finish .typePredicate start ([word, subject] ++ type)

/-! ### Templates -/

def templatePiece (tagged : Bool) : Parse Node := do
  if (← token) == .closeBrace then
    reread fun source => Lexeme.asTemplate source (!tagged)
    takeToken
  else expectNode .templateTail (.missing .closeBrace)

/-- The first piece of a template. Outside a tagged template its escapes must have a meaning. -/
def templateHead (tagged : Bool) : Parse Node := do
  if !tagged && (← lexeme).invalid then
    reread fun source => Lexeme.asTemplate source true
  takeToken

def templateSpans (span : Parse Node) : Parse Node := do
  let start ← position
  let step : Parse (Option Node × Bool) := do
    let node ← span
    let goesOn := (node.children.getLast?.map (·.isToken .templateMiddle)).getD false
    return (some node, !goesOn)
  let spans ← repeatWithin step (← stepBound) []
  finishList start spans

def templateType : Parse Node := do
  let start ← position
  let head ← templateHead false
  let span : Parse Node := do
    let first ← position
    let type ← goal .type
    let piece ← templatePiece false
    finish .templateTypeSpan first [type, piece]
  let spans ← templateSpans span
  finish .templateType start [head, spans]

/-! ### Members -/

def signatureMember (form : Form) : Parse Node := do
  let start ← position
  if form == .constructSignature then expectQuietly .kwNew
  let typeParams ← typeParameters?
  let params ← parameters { inType := true }
  let result ← resultType? true
  endTypeMember
  finish form start (optional .typeParameters typeParams ++ [params] ++ optional .type result)

def propertyOrMethodSignature (start : Nat) (words : Option Node) : Parse Node := do
  let name ← propertyName
  let question ← acceptNode .question
  let before := optional .modifiers words ++ [name.as .name] ++ optional .question question
  let finishAt (form : Form) (children : List Node) : Parse Node := do
    endTypeMember
    finish form start children
  if isOpenParenOrLessThan (← token) then
    let typeParams ← typeParameters?
    let params ← parameters { inType := true }
    let result ← resultType? true
    finishAt .methodSignature
      (before ++ optional .typeParameters typeParams ++ [params] ++ optional .type result)
  else
    let annotation ← typeAnnotation?
    let initial ← initializer?
    finishAt .propertySignature
      (before ++ optional .type annotation ++ optional .initializer initial)

def typeMember : Parse Node := do
  let t ← token
  if isOpenParenOrLessThan t then signatureMember .callSignature
  else
    let constructs ←
      if t == .kwNew then next (tokenIs isOpenParenOrLessThan) else pure false
    if constructs then signatureMember .constructSignature
    else
      let start ← position
      let words ← modifiers {}
      match ← accessor? start words true with
      | some node => return node
      | none =>
        if ← isIndexSignature then indexSignature start words
        else propertyOrMethodSignature start words

def typeMembers : Parse Node := do
  if ← expect .openBrace then
    let list ← members .typeMembers typeMember
    expectQuietly .closeBrace
    return list
  else missingList

/-- Whether the brace at hand opens a type that goes through the keys of another. -/
def opensMappedType : Parse Bool :=
  next do
    match ← token with
    | .plus | .minus =>
      advance
      return (← token) == .kwReadonly
    | _ =>
      discard (accept .kwReadonly)
      if (← token) != .openBracket then return false
      advance
      if !(← isIdentifier) then return false
      advance
      return (← token) == .kwIn

def signedToken (word : Token) : Parse (List Node) := do
  let t ← token
  if t == word || t == .plus || t == .minus then
    let node ← takeToken
    if t != word then expectQuietly word
    return [node]
  else return []

def mappedType : Parse Node := do
  let start ← position
  expectQuietly .openBrace
  let readonlyNode ← signedToken .kwReadonly
  expectQuietly .openBracket
  let keyStart ← position
  let name ← identifierName
  expectQuietly .kwIn
  let keys ← goal .type
  let key ← finish .typeParameter keyStart [name.as .name, keys]
  let nameType ← if ← accept .kwAs then pure [← goal .type] else pure []
  expectQuietly .closeBracket
  let question ← signedToken .question
  let annotation ← typeAnnotation?
  endStatement
  let list ← members .typeMembers typeMember
  expectQuietly .closeBrace
  finish .mappedType start
    (readonlyNode ++ [key] ++ nameType ++ question ++ optional .type annotation ++ [list])

/-! ### Tuples -/

def tupleElementType : Parse Node := do
  let start ← position
  if ← accept .dotDotDot then
    let type ← goal .type
    finish .restType start [type]
  else
    let type ← goal .type
    match type.hasForm .docNullableType, type.children with
    | true, [inner] =>
      -- with the question mark behind it, this is an element that may be left out
      if inner.start == type.start then
        return .mk .part (.form .optionalType .plain) type.start type.stop [inner]
      else return type
    | _, _ => return type

def isTupleElementName : Parse Bool :=
  peek do
    discard (accept .dotDotDot)
    if !(← token).isWord then return false
    advance
    match ← token with
    | .colon => return true
    | .question =>
      advance
      return (← token) == .colon
    | _ => return false

def tupleElement : Parse Node := do
  if ← isTupleElementName then
    let start ← position
    let dots ← acceptNode .dotDotDot
    let name ← identifierName
    let question ← acceptNode .question
    expectQuietly .colon
    let type ← tupleElementType
    finish .namedTupleMember start
      (optional .part dots ++ [name.as .name] ++ optional .question question ++ [type])
  else tupleElementType

/-! ### The notation of documentation comments -/

def docParameter : Parse Node := do
  let start ← position
  let name ← match ← token with
    | .kwThis | .kwNew => do
      let name ← identifierName
      expectQuietly .colon
      pure [name.as .name]
    | _ => pure []
  let typeStart ← position
  let dots ← accept .dotDotDot
  let type ← typeOrPredicate
  let type ← if dots then finish .docType typeStart [type] else pure type
  let type ←
    if ← accept .equals then finish .docType typeStart [type] else pure type
  finish .parameter start (name ++ [type.as .type])

def docFunctionType : Parse Node := do
  let start ← position
  if ← attemptIf (do advance; return (← token) == .openParen) then
    let list ←
      if ← expect .openParen then do
        let list ← yielding false (awaiting false (separated .docParameters docParameter false))
        expectQuietly .closeParen
        pure list
      else missingList
    let result ← resultType? false
    finish .docFunctionType start ([list.as .parameters] ++ optional .type result)
  else
    let name ← identifierName
    finish .typeReference start [name]

def docQuestionType : Parse Node := do
  let start ← position
  advance
  match ← token with
  | .comma | .closeBrace | .closeParen | .greaterThan | .equals | .bar =>
    finish .docType start []
  | _ =>
    let type ← goal .type
    finish .docNullableType start [type]

/-! ### The three layers -/

def plainTypeStep : Parse Node := do
  let start ← position
  match ← token with
  | .kwAny | .kwUnknown | .kwString | .kwNumber | .kwBigint | .kwSymbol | .kwBoolean
  | .kwUndefined | .kwNever | .kwObject => wordType
  | .asteriskEquals | .asterisk =>
    resize Lexeme.splitAsterisk
    advance
    finish .docType start []
  | .questionQuestion | .question =>
    resize Lexeme.splitQuestion
    docQuestionType
  | .kwFunction => docFunctionType
  | .exclamation =>
    advance
    let inner ← goal .plainType
    finish .docType start [inner]
  | .plainTemplate | .stringLiteral | .numericLiteral | .bigIntLiteral | .kwTrue | .kwFalse
  | .kwNull => literalType false
  | .minus => if ← isNumericLiteralNext then literalType true else typeReference
  | .kwVoid => takeToken
  | .kwThis => thisType
  | .kwTypeof => if ← next (tokenIs (· == .kwImport)) then importType else typeQuery
  | .openBrace =>
    if ← opensMappedType then mappedType
    else
      let list ← typeMembers
      finish .typeLiteral start [list]
  | .openBracket =>
    let list ← bracketed .tupleElements tupleElement .openBracket .closeBracket
    finish .tupleType start [list]
  | .openParen =>
    expectQuietly .openParen
    let inner ← goal .type
    expectQuietly .closeParen
    finish .parenthesizedType start [inner]
  | .kwImport => importType
  | .kwAsserts =>
    let isAssertion ← next do
      let subject ← if (← token) == .kwThis then pure true else isIdentifier
      return subject && (← onSameLine)
    if isAssertion then assertion else typeReference
  | .templateHead => templateType
  | _ => typeReference

def typeSuffixes (start : Nat) : Nat → Node → Parse Node
  | 0, type => return type
  | bound + 1, type => do
    if ← afterBreak then return type
    match ← token with
    | .exclamation =>
      advance
      typeSuffixes start bound (← finish .docType start [type])
    | .question =>
      if ← next isTypeStart then return type
      advance
      typeSuffixes start bound (← finish .docNullableType start [type])
    | .openBracket =>
      advance
      if ← isTypeStart then
        let index ← goal .type
        expectQuietly .closeBracket
        typeSuffixes start bound (← finish .indexedAccessType start [type, index])
      else
        expectQuietly .closeBracket
        typeSuffixes start bound (← finish .arrayType start [type])
    | _ => return type

/-- What may follow `infer`: a name and a bound, unless the bound begins a conditional type. -/
def inferredParameter : Parse Node := do
  let start ← position
  let name ← identifier
  let bound? : Parse (Option Node) := do
    if !(← accept .kwExtends) then return none
    let bound ← forbiddingConditionalTypes (goal .type)
    if (← context).withoutConditionalTypes || (← token) != .question then return some bound
    else return none
  let bound ← attempt bound?
  finish .typeParameter start ([name.as .name] ++ optional .part bound)

def typeOperatorStep : Parse Node := do
  let start ← position
  match ← token with
  | .kwKeyof | .kwUnique | .kwReadonly =>
    advance
    let inner ← goal .typeOperator
    finish .typeOperator start [inner]
  | .kwInfer =>
    advance
    let parameter ← inferredParameter
    finish .inferType start [parameter]
  | _ =>
    allowingConditionalTypes do
      let inner ← goal .plainType
      typeSuffixes start (← stepBound) inner

/-- A function type where it would need parentheses. -/
def strayFunctionType? : Parse (Option Node) := do
  if ← isFunctionTypeStart then
    let type ← functionType
    reportAt type.start .misplaced
    return some type
  else return none

/-- Operands with the same operator between them; one may stand in front as well. -/
def joinedTypes (operator : Token) (form : Form) (operand : Parse Node) : Parse Node := do
  let start ← position
  let operandOrStray : Parse Node := do
    match ← strayFunctionType? with
    | some type => return type
    | none => operand
  let leading ← accept operator
  let first ← if leading then operandOrStray else operand
  if leading || (← token) == operator then
    let step : Parse (Option Node × Bool) := do
      if ← accept operator then return (some (← operandOrStray), false) else return (none, true)
    let rest ← repeatWithin step (← stepBound) []
    finish form start [← finishList start (first :: rest)]
  else return first

def unionType : Parse Node :=
  joinedTypes .bar .unionType (joinedTypes .ampersand .intersectionType (goal .typeOperator))

def typeStep : Parse Node :=
  yielding false <| awaiting false do
    if ← isFunctionTypeStart then functionType
    else
      let start ← position
      let type ← unionType
      if (← context).withoutConditionalTypes || (← afterBreak) then return type
      if !(← accept .kwExtends) then return type
      let bound ← forbiddingConditionalTypes (goal .type)
      expectQuietly .question
      let whenTrue ← allowingConditionalTypes (goal .type)
      expectQuietly .colon
      let whenFalse ← allowingConditionalTypes (goal .type)
      finish .conditionalType start [type, bound, whenTrue, whenFalse]

end LineCensus.Script.Grammar
