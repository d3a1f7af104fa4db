import LineCensus.Script.Grammar.Names

/-!
What functions, methods and variables have in common: the names they bind, their parameters, their
types and their bodies.
-/

namespace LineCensus.Script.Grammar

structure Flavor where
  yields : Bool := false
  awaits : Bool := false
  inType : Bool := false
  braceOptional : Bool := false

def typeAnnotation? : Parse (Option Node) := do
  if ← accept .colon then return some (← goal .type) else return none

def initializer? : Parse (Option Node) := do
  if ← accept .equals then return some (← assignment) else return none

/-! ### Bindings -/

def binding : Parse Node := goal .binding

def arrayBindingElement : Parse Node := do
  let start ← position
  if (← token) == .comma then finish .omitted start []
  else
    let dots ← acceptNode .dotDotDot
    let name ← binding
    let initial ← initializer?
    finish .bindingElement start
      (optional .part dots ++ [name.as .name] ++ optional .initializer initial)

def objectBindingElement : Parse Node := do
  let start ← position
  let dots ← acceptNode .dotDotDot
  let isName ← isBindingIdentifier
  let property ← propertyName
  let names ←
    if isName && (← token) != .colon then pure [property.as .name]
    else do
      expectQuietly .colon
      pure [property, (← binding).as .name]
  let initial ← initializer?
  finish .bindingElement start (optional .part dots ++ names ++ optional .initializer initial)

def bindingStep : Parse Node := do
  let start ← position
  match ← token with
  | .openBracket =>
    expectQuietly .openBracket
    let elements ← allowingIn (separated .arrayBindingElements arrayBindingElement false)
    expectQuietly .closeBracket
    finish .arrayBinding start [elements]
  | .openBrace =>
    expectQuietly .openBrace
    let elements ← allowingIn (separated .objectBindingElements objectBindingElement false)
    expectQuietly .closeBrace
    finish .objectBinding start [elements]
  | _ => bindingIdentifier

/-! ### Parameters -/

/-- The name of a parameter. A modifier in its place is passed over. -/
def parameterName (modified : Bool) : Parse Node := do
  let name ← binding
  if name.isEmpty && !modified && (← token).isModifier then advance
  return name

/-- One parameter; decorators are read as in the surroundings (`outerAwaits`). If `certain` is false
and no name follows, there is no parameter list here after all. -/
def parameter? (outerAwaits certain : Bool) : Parse (Option Node) := do
  let start ← position
  let words ← awaiting outerAwaits (modifiers { decorators := true })
  if (← token) == .kwThis then
    let name ← takeName true
    let annotation ← typeAnnotation?
    if let some list := words then
      if let first :: _ := list.children then reportAt first.start .misplaced
    return some (← finish .parameter start
      (optional .modifiers words ++ [name.as .name] ++ optional .type annotation))
  let dots ← acceptNode .dotDotDot
  let named ← match ← token with
    | .openBracket | .openBrace => pure true
    | _ => isBindingIdentifier
  if !certain && !named then return none
  let name ← parameterName words.isSome
  let question ← acceptNode .question
  let annotation ← typeAnnotation?
  let initial ← initializer?
  return some (← finish .parameter start
    (optional .modifiers words ++ optional .part dots ++ [name.as .name]
      ++ optional .question question ++ optional .type annotation
      ++ optional .initializer initial))

def parameterList? (flavor : Flavor) (certain : Bool) : Parse (Option Node) := do
  let outerAwaits := (← context).awaits
  let list ← yielding flavor.yields <| awaiting flavor.awaits <|
    separated? .parameters (parameter? outerAwaits certain) false
  return list.map (·.as .parameters)

def parameters (flavor : Flavor) : Parse Node := do
  if !(← expect .openParen) then return (← missingList).as .parameters
  let list ← parameterList? flavor true
  expectQuietly .closeParen
  match list with
  | some list => return list
  | none => return (← missingList).as .parameters

/-- The single parameter of an index signature, which decorators may not use `await` in. -/
def indexParameter : Parse Node := do
  match ← parameter? false true with
  | some node => return node
  | none => missingName

/-! ### Type parameters and result types -/

def typeParameter : Parse Node := do
  let start ← position
  let words ← modifiers { constAllowed := true }
  let name ← identifier
  let bound ←
    if ← accept .kwExtends then do
      let isType ← if ← isTypeStart then pure true else not <$> isExpressionStart
      if isType then pure [← goal .type] else pure [(← goal .unary).as .expression]
    else pure []
  let default ← if ← accept .equals then pure [← goal .type] else pure []
  -- an expression in place of a type stands behind everything else
  let (types, expressions) := bound.partition fun node => node.role != .expression
  finish .typeParameter start
    (optional .modifiers words ++ [name.as .name] ++ types ++ default ++ expressions)

def typeParameters? : Parse (Option Node) := do
  if (← token) == .lessThan then
    return some ((← bracketed .typeParameters typeParameter .lessThan .greaterThan).as
      .typeParameters)
  else return none

def typeOrPredicate : Parse Node := do
  let start ← position
  let subject? : Parse (Option Node) := do
    let name ← identifier
    if (← token) == .kwIs && (← onSameLine) then
      advance
      return some name
    else return none
  let subject ← if ← isIdentifier then attempt subject? else pure none
  let type ← goal .type
  match subject with
  | some subject => finish .typePredicate start [subject, type]
  | none => return type

/-- The result type of a signature, after a colon. In a type (`inType`) an arrow in place of the colon
is noted and passed over. -/
def resultType? (inType : Bool) : Parse (Option Node) := do
  let follows ←
    if ← accept .colon then pure true
    else if inType && (← token) == .arrow then do
      reportHere (.missing .colon)
      advance
      pure true
    else pure false
  if follows then return some (← allowingConditionalTypes typeOrPredicate) else return none

def arrowResultType : Parse Node := do
  expectQuietly .arrow
  allowingConditionalTypes typeOrPredicate

/-! ### Bodies -/

def block (braceOptional : Bool) : Parse Node := do
  let start ← position
  let opened ← expect .openBrace
  if opened || braceOptional then
    let statements ← members .blockStatements (goal .statement)
    expectQuietly .closeBrace
    let node ← finish .block start [statements]
    if (← token) == .equals then
      reportHere .unexpected
      advance
    return node
  else finish .block start [← missingList]

def functionBlock (flavor : Flavor) : Parse Node :=
  yielding flavor.yields <| awaiting flavor.awaits <| decorating false <|
    block flavor.braceOptional

/-- A member of a type ends with a comma, a semicolon or the line. -/
def endTypeMember : Parse Unit := do
  if !(← accept .comma) then endStatement

/-- A function body, or the end of a signature without one. -/
def functionBody? (flavor : Flavor) : Parse (Option Node) := do
  if (← token) != .openBrace then
    if flavor.inType then
      endTypeMember
      return none
    if ← canEndStatement then
      endStatement
      return none
  return some (← functionBlock flavor)

/-! ### Members that classes, objects and types share -/

def accessor (form : Form) (start : Nat) (words : Option Node) (inType : Bool) : Parse Node := do
  let name ← propertyName
  let typeParams ← typeParameters?
  let params ← parameters {}
  let result ← resultType? false
  let body ← functionBody? { inType }
  finish form start
    (optional .modifiers words ++ [name.as .name] ++ optional .typeParameters typeParams
      ++ [params] ++ optional .type result ++ optional .body body)

def accessor? (start : Nat) (words : Option Node) (inType : Bool) : Parse (Option Node) := do
  if ← acceptModifier .kwGet then return some (← accessor .getAccessor start words inType)
  if ← acceptModifier .kwSet then return some (← accessor .setAccessor start words inType)
  return none

def indexSignature (start : Nat) (words : Option Node) : Parse Node := do
  let params ← bracketed .parameters indexParameter .openBracket .closeBracket
  let annotation ← typeAnnotation?
  endTypeMember
  finish .indexSignature start
    (optional .modifiers words ++ [params.as .parameters] ++ optional .type annotation)

def method (start : Nat) (words asteriskNode : Option Node) (name : Node)
    (question exclamation : Option Node) : Parse Node := do
  let flavor : Flavor := { yields := asteriskNode.isSome, awaits := hasModifier .kwAsync words }
  let typeParams ← typeParameters?
  let params ← parameters flavor
  let result ← resultType? false
  let body ← functionBody? flavor
  finish .methodDeclaration start
    (optional .modifiers words ++ optional .part asteriskNode ++ [name.as .name]
      ++ optional .question question ++ optional .part exclamation
      ++ optional .typeParameters typeParams ++ [params] ++ optional .type result
      ++ optional .body body)

end LineCensus.Script.Grammar
