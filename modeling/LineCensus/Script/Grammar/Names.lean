import LineCensus.Script.Grammar.Lists

/-!
Comma expressions, literals, property names, modifiers and decorators.
-/

namespace LineCensus.Script.Grammar

def assignment : Parse Node := goal (.assignment true)

def commaOperands (start : Nat) : Nat → Node → Parse Node
  | 0, left => return left
  | bound + 1, left => do
    match ← acceptNode .comma with
    | none => return left
    | some comma =>
      let right ← assignment
      commaOperands start bound (← finish .binary start [left, comma, right])

def expression : Parse Node :=
  decorating false do
    let start ← position
    commaOperands start (← stepBound) (← assignment)

def literal : Parse Node := takeToken

/-- Take the current token as a literal; it may be missing its end. -/
def stringOrName : Parse Node := do
  if (← token) == .stringLiteral then literal else identifierName

def computedPropertyName : Parse Node := do
  let start ← position
  expectQuietly .openBracket
  let inner ← allowingIn expression
  expectQuietly .closeBracket
  finish .computedPropertyName start [inner.as .expression]

def propertyName : Parse Node := do
  match ← token with
  | .stringLiteral | .numericLiteral | .bigIntLiteral => literal
  | .openBracket => computedPropertyName
  | .privateIdentifier => privateName
  | _ => identifierName

/-- The name after a dot. When a word on the next line is followed by another word, it begins a
statement of its own, and the name is missing. -/
def nameAfterDot (wordsAllowed privateAllowed escapesAllowed : Bool) : Parse Node := do
  let t ← token
  let startsStatement ←
    if (← afterBreak) && t.isWord then isWordNextOnLine false else pure false
  if startsStatement then missingNameBefore
  else if t == .privateIdentifier then
    let node ← privateName
    if privateAllowed then return node else missingNameBefore
  else if wordsAllowed then
    if escapesAllowed then identifierName else unescapedName
  else identifier

def qualifiedRest (wordsAllowed : Bool) (start : Nat) : Nat → Node → Parse Node
  | 0, left => return left
  | bound + 1, left => do
    if !(← accept .dot) then return left
    if (← token) == .lessThan then return left
    let right ← nameAfterDot wordsAllowed false true
    qualifiedRest wordsAllowed start bound (← finish .qualifiedName start [left, right])

def qualifiedName (wordsAllowed : Bool) : Parse Node := do
  let start ← position
  let first ← if wordsAllowed then identifierName else identifier
  qualifiedRest wordsAllowed start (← stepBound) first

/-! ### Modifiers -/

structure ModifierRules where
  decorators : Bool := false
  constAllowed : Bool := false
  /-- A `static` before a brace opens a static block. -/
  staticBlocks : Bool := false

def modifier? (rules : ModifierRules) (afterStatic : Bool) : Parse (Option Node) := do
  let start ← position
  let word ← token
  let taken : Parse Bool := do
    if word == .kwConst && rules.constAllowed then attemptIf sameLineAndCanFollowModifier
    else
      let opensBlock ←
        if rules.staticBlocks && word == .kwStatic then next (tokenIs (· == .openBrace))
        else pure false
      if opensBlock || (afterStatic && word == .kwStatic) then return false
      if word.isModifier then attemptIf takesModifier else return false
  if ← taken then return some (.mk .part (.token word) start (← position) []) else return none

def modifiersFrom (rules : ModifierRules) :
    Nat → Bool → List Node → Parse (Bool × List Node)
  | 0, afterStatic, gathered => return (afterStatic, gathered)
  | bound + 1, afterStatic, gathered => do
    match ← modifier? rules afterStatic with
    | none => return (afterStatic, gathered)
    | some word =>
      modifiersFrom rules bound (afterStatic || word.isToken .kwStatic) (gathered ++ [word])

/-- The expression of a decorator. Where `await` is an operator it cannot be one's name. -/
def decorator? : Parse (Option Node) := do
  let start ← position
  if !(← accept .at) then return none
  let inner ← decorating true (goal .leftHandSide)
  return some (← finish .decorator start [inner.as .expression])

def decoratorsFrom : Nat → List Node → Parse (List Node)
  | 0, gathered => return gathered
  | bound + 1, gathered => do
    match ← decorator? with
    | none => return gathered
    | some node => decoratorsFrom bound (gathered ++ [node])

/-- The modifiers and decorators in front of a declaration; none if there are none. Decorators stand
before the modifiers or between them. -/
def modifiers (rules : ModifierRules) : Parse (Option Node) := do
  let start ← position
  let bound ← stepBound
  let leading ← if rules.decorators then decoratorsFrom bound [] else pure []
  let (afterStatic, words) ← modifiersFrom rules bound false []
  let trailing ←
    if rules.decorators && !words.isEmpty then decoratorsFrom bound [] else pure []
  let more ←
    if trailing.isEmpty then pure []
    else Prod.snd <$> modifiersFrom rules bound afterStatic []
  let all := leading ++ words ++ trailing ++ more
  if all.isEmpty then return none
  return some ((← finishList start all).as .modifiers)

def hasModifier (word : Token) (list : Option Node) : Bool :=
  match list with
  | none => false
  | some node => node.children.any (·.isToken word)

def asyncModifier : Parse (Option Node) := do
  if (← token) != .kwAsync then return none
  let start ← position
  let word ← takeToken
  return some ((← finishList start [word]).as .modifiers)

end LineCensus.Script.Grammar
