import LineCensus.Script.Grammar.Basic

/-!
Which tokens begin the parts of the grammar. Most answers depend on the current token alone; some
need a look at the tokens after it.
-/

namespace LineCensus.Script.Grammar

variable {α : Type}

def next (p : Parse α) : Parse α := peek (do advance; p)

def onSameLine : Parse Bool := return !(← afterBreak)

def tokenIs (test : Token → Bool) : Parse Bool := return test (← token)

/-! ### Modifiers -/

def canFollowModifier : Parse Bool :=
  tokenIs fun
    | .openBracket | .openBrace | .asterisk | .dotDotDot => true
    | t => t.isLiteralPropertyName

def canFollowExportModifier : Parse Bool := do
  match ← token with
  | .at => return true
  | .asterisk | .kwAs | .openBrace => return false
  | _ => canFollowModifier

/-- Whether a declaration follows `default`, which is the current token. -/
def canFollowDefault : Parse Bool := do
  advance
  match ← token with
  | .kwClass | .kwFunction | .kwInterface | .at => return true
  | .kwAbstract => next do return (← token) == .kwClass && (← onSameLine)
  | .kwAsync => next do return (← token) == .kwFunction && (← onSameLine)
  | _ => return false

def sameLineAndCanFollowModifier : Parse Bool := do
  advance
  if ← afterBreak then return false
  canFollowModifier

/-- Whether the current token, which spells a modifier, is one here. It is taken on the way. -/
def takesModifier : Parse Bool := do
  match ← token with
  | .kwConst =>
    advance
    return (← token) == .kwEnum
  | .kwExport =>
    advance
    match ← token with
    | .kwDefault => peek canFollowDefault
    | .kwType => next canFollowExportModifier
    | _ => canFollowExportModifier
  | .kwDefault => canFollowDefault
  | .kwStatic | .kwGet | .kwSet =>
    advance
    canFollowModifier
  | _ => sameLineAndCanFollowModifier

def acceptModifier (word : Token) : Parse Bool := do
  if (← token) != word then return false
  attemptIf takesModifier

/-! ### Bindings -/

def isBindingStart : Parse Bool := do
  match ← token with
  | .openBrace | .openBracket | .privateIdentifier => return true
  | _ => isBindingIdentifier

/-! ### Types -/

def isNumericLiteralNext : Parse Bool :=
  next (tokenIs fun t => t == .numericLiteral || t == .bigIntLiteral)

/-- Whether a type begins here. In a parameter list (`inParameters`) some tokens that could begin one
do not. Nested parentheses are looked into as far as the bound allows. -/
def isTypeStartWithin (bound : Nat) (inParameters : Bool) : Parse Bool := do
  match ← token with
  | .kwAny | .kwUnknown | .kwString | .kwNumber | .kwBigint | .kwBoolean | .kwReadonly
  | .kwSymbol | .kwUnique | .kwVoid | .kwUndefined | .kwNull | .kwThis | .kwTypeof | .kwNever
  | .openBrace | .openBracket | .lessThan | .bar | .ampersand | .kwNew | .stringLiteral
  | .numericLiteral | .bigIntLiteral | .kwTrue | .kwFalse | .kwObject | .asterisk | .question
  | .exclamation | .dotDotDot | .kwInfer | .kwImport | .kwAsserts | .plainTemplate
  | .templateHead => return true
  | .kwFunction => return !inParameters
  | .minus => if inParameters then return false else isNumericLiteralNext
  | .openParen =>
    if inParameters then return false
    else match bound with
      | 0 => return false
      | bound + 1 =>
        next do
          if (← token) == .closeParen then return true
          let startsParameter ←
            if (← token) == .dotDotDot then pure true
            else if ← isBindingStart then pure true
            else if (← token).isModifier then pure true
            else if (← token) == .at then pure true
            else isTypeStartWithin bound true
          if startsParameter then return true
          isTypeStartWithin bound false
  | _ => isIdentifier

def isTypeStart : Parse Bool := do isTypeStartWithin (← source).size false

/-- Whether a parameter begins here; `documented` for the notation of documentation comments. -/
def isParameterStart (documented : Bool) : Parse Bool := do
  if (← token) == .dotDotDot || (← token) == .at || (← token).isModifier then return true
  if ← isBindingStart then return true
  isTypeStartWithin (← source).size (!documented)

/-! ### Expressions -/

def isOpenParenOrLessThan : Token → Bool
  | .openParen | .lessThan => true
  | _ => false

def isImportExpressionStart : Parse Bool :=
  next (tokenIs fun t => t == .openParen || t == .lessThan || t == .dot)

def isLeftHandSideStart : Parse Bool := do
  match ← token with
  | .kwThis | .kwSuper | .kwNull | .kwTrue | .kwFalse | .numericLiteral | .bigIntLiteral
  | .stringLiteral | .plainTemplate | .templateHead | .openParen | .openBracket | .openBrace
  | .kwFunction | .kwClass | .kwNew | .slash | .slashEquals | .identifier => return true
  | .kwImport => isImportExpressionStart
  | _ => isIdentifier

def isBinaryOperator : Parse Bool := do
  let t ← token
  if t == .kwIn && (← context).withoutIn then return false
  return t.precedence != 0

def isExpressionStart : Parse Bool := do
  if ← isLeftHandSideStart then return true
  match ← token with
  | .plus | .minus | .tilde | .exclamation | .kwDelete | .kwTypeof | .kwVoid | .plusPlus
  | .minusMinus | .lessThan | .kwAwait | .kwYield | .privateIdentifier | .at => return true
  | _ => if ← isBinaryOperator then return true else isIdentifier

def isExpressionStatementStart : Parse Bool := do
  match ← token with
  | .openBrace | .kwFunction | .kwClass | .at => return false
  | _ => isExpressionStart

/-- Whether the next token stands on the same line and is a word, or a literal too if `literals`. -/
def isWordNextOnLine (literals : Bool) : Parse Bool :=
  next do
    let t ← token
    let fits := t.isWord ||
      (literals && (t == .numericLiteral || t == .bigIntLiteral || t == .stringLiteral))
    return fits && (← onSameLine)

/-! ### Statements -/

/-- Whether a `using` that is the current token declares a variable: a name or a braced pattern
follows on the same line. With `ofIsNoName`, an `of` counts only where it must be a name. -/
def declaresAfterUsing (ofIsNoName : Bool) : Parse Bool := do
  advance
  if ofIsNoName && (← token) == .kwOf then
    next (tokenIs fun t => t == .equals || t == .semicolon || t == .colon)
  else
    let fits ← if (← token) == .openBrace then pure true else isBindingIdentifier
    return fits && (← onSameLine)

def isUsingDeclaration : Parse Bool := peek (declaresAfterUsing false)

def isAwaitUsingDeclaration : Parse Bool :=
  next do
    if (← token) == .kwUsing && (← onSameLine) then declaresAfterUsing false else return false

/-- Whether a declaration begins here, after any number of modifiers. -/
def isDeclarationWithin : Nat → Parse Bool
  | 0 => return false
  | bound + 1 => do
    let current ← token
    match current with
    | .kwVar | .kwLet | .kwConst | .kwFunction | .kwClass | .kwEnum => return true
    | .kwUsing => isUsingDeclaration
    | .kwAwait => isAwaitUsingDeclaration
    | .kwInterface | .kwType =>
      advance
      return (← isIdentifier) && (← onSameLine)
    | .kwModule | .kwNamespace =>
      advance
      let fits ← if (← token) == .stringLiteral then pure true else isIdentifier
      return fits && (← onSameLine)
    | .kwAbstract | .kwAccessor | .kwAsync | .kwDeclare | .kwPrivate | .kwProtected | .kwPublic
    | .kwReadonly =>
      advance
      if ← afterBreak then return false
      if current == .kwDeclare && (← token) == .kwType then return true
      isDeclarationWithin bound
    | .kwGlobal =>
      advance
      tokenIs fun t => t == .openBrace || t == .identifier || t == .kwExport
    | .kwImport =>
      advance
      tokenIs fun t => t == .stringLiteral || t == .asterisk || t == .openBrace || t.isWord
    | .kwExport =>
      advance
      let after ← if (← token) == .kwType then next token else token
      match after with
      | .equals | .asterisk | .openBrace | .kwDefault | .kwAs | .at => return true
      | _ => isDeclarationWithin bound
    | .kwStatic =>
      advance
      isDeclarationWithin bound
    | _ => return false

def isDeclarationStart : Parse Bool := do
  let bound := (← source).size + 1
  peek (isDeclarationWithin bound)

def isStatementStart : Parse Bool := do
  match ← token with
  | .at | .semicolon | .openBrace | .kwVar | .kwLet | .kwUsing | .kwFunction | .kwClass
  | .kwEnum | .kwIf | .kwDo | .kwWhile | .kwFor | .kwContinue | .kwBreak | .kwReturn | .kwWith
  | .kwSwitch | .kwThrow | .kwTry | .kwDebugger | .kwCatch | .kwFinally => return true
  | .kwImport => if ← isDeclarationStart then return true else isImportExpressionStart
  | .kwConst | .kwExport => isDeclarationStart
  | .kwAsync | .kwDeclare | .kwInterface | .kwModule | .kwNamespace | .kwType | .kwGlobal
  | .kwDefer => return true
  | .kwAccessor | .kwPublic | .kwPrivate | .kwProtected | .kwStatic | .kwReadonly =>
    if ← isDeclarationStart then return true else return !(← isWordNextOnLine false)
  | _ => isExpressionStart

/-! ### Members -/

def skipModifiersWithin (last : Option Token) : Nat → Parse (Option Token)
  | 0 => return last
  | bound + 1 => do
    let t ← token
    if t.isModifier then
      advance
      skipModifiersWithin (some t) bound
    else return last

/-- Go past modifiers up to one that only members have; the answer is the last one met, and whether
it was of that kind. -/
def skipToMemberModifierWithin (last : Option Token) : Nat → Parse (Option Token × Bool)
  | 0 => return (last, false)
  | bound + 1 => do
    let t ← token
    if !t.isModifier then return (last, false)
    if t.isMemberModifier then return (some t, true)
    advance
    skipToMemberModifierWithin (some t) bound

def isClassMemberStart : Parse Bool := do
  let bound := (← source).size + 1
  peek do
    if (← token) == .at then return true
    let (last, certain) ← skipToMemberModifierWithin none bound
    if certain then return true
    if (← token) == .asterisk then return true
    let word ←
      if (← token).isLiteralPropertyName then do
        let t ← token
        advance
        pure (some t)
      else pure last
    if (← token) == .openBracket then return true
    match word with
    | none => return false
    | some word =>
      if !word.isKeyword || word == .kwSet || word == .kwGet then return true
      match ← token with
      | .openParen | .lessThan | .exclamation | .colon | .equals | .question => return true
      | _ => canEndStatement

def isTypeMemberStart : Parse Bool := do
  let bound := (← source).size + 1
  peek do
    match ← token with
    | .openParen | .lessThan | .kwGet | .kwSet => return true
    | _ =>
      let last ← skipModifiersWithin none bound
      if (← token) == .openBracket then return true
      let named ←
        if (← token).isLiteralPropertyName then do
          advance
          pure true
        else pure last.isSome
      if !named then return false
      match ← token with
      | .openParen | .lessThan | .question | .colon | .comma => return true
      | _ => canEndStatement

/-- Whether the bracket that is the current token opens an index signature rather than a computed
name. -/
def isIndexSignature : Parse Bool := do
  if (← token) != .openBracket then return false
  next do
    match ← token with
    | .dotDotDot | .closeBracket => return true
    | first =>
      if first.isModifier then
        advance
        if ← isIdentifier then return true
      else if !(← isIdentifier) then return false
      else advance
      match ← token with
      | .colon | .comma => return true
      | .question =>
        advance
        tokenIs fun t => t == .colon || t == .comma || t == .closeBracket
      | _ => return false

/-! ### Heritage clauses -/

def isHeritageWord : Token → Bool
  | .kwExtends | .kwImplements => true
  | _ => false

/-- Whether the word at hand opens the next clause rather than naming a type. -/
def isHeritageClauseWord : Parse Bool := do
  if isHeritageWord (← token) then next isExpressionStart else return false

/-- Whether the brace at hand opens an object that is extended, rather than the body. -/
def isHeritageObject : Parse Bool :=
  next do
    if (← token) != .closeBrace then return true
    advance
    tokenIs fun t => t == .comma || t == .openBrace || isHeritageWord t

end LineCensus.Script.Grammar
