import LineCensus.Script.Grammar.Expressions

/-!
Imports, exports and namespaces.
-/

namespace LineCensus.Script.Grammar

/-- The module that an import or export names. Any expression is taken. -/
def moduleSpecifier : Parse Node := do
  if (← token) == .stringLiteral then literal else expression

/-- The attributes of an import, after `with` or `assert` on the same line. -/
def importAttributes? : Parse (Option Node) := do
  match ← token with
  | .kwWith | .kwAssert =>
    if ← afterBreak then return none
    let start ← position
    advance
    return some (← importAttributeList start)
  | _ => return none

/-! ### Specifiers -/

/-- A name in an import or export list, and whether it is a word that is no name. -/
structure Specified where
  node : Node
  keyword : Option Nat

def specified : Parse Specified := do
  let current ← lexeme
  let isKeyword ← if current.token.isKeyword then not <$> isIdentifier else pure false
  let node ← stringOrName
  return ⟨node, if isKeyword then some current.start else none⟩

def canBeSpecified : Parse Bool := tokenIs fun t => t.isWord || t == .stringLiteral

/-- What has been read of a specifier: whether it is of types only, what it names and, before `as`,
what that is called in the other module. -/
structure Specifier where
  typeOnly : Bool
  property : Option Node
  name : Specified

/-- The rest of a specifier whose first word was `type`. The word may be a name or set the specifier
apart, and so may an `as` behind it. -/
def typeSpecifier (first : Specified) : Parse (Specifier × Bool) := do
  if (← token) == .kwAs then
    let firstAs ← identifierName
    if (← token) == .kwAs then
      let secondAs ← identifierName
      if ← canBeSpecified then return (⟨true, some firstAs, ← specified⟩, false)
      else return (⟨false, some first.node, ⟨secondAs, first.keyword⟩⟩, false)
    else if ← canBeSpecified then return (⟨false, some first.node, ← specified⟩, false)
    else return (⟨true, none, ⟨firstAs, first.keyword⟩⟩, true)
  else if ← canBeSpecified then return (⟨true, none, ← specified⟩, true)
  else return (⟨false, none, first⟩, true)

def specifier (form : Form) : Parse Node := do
  let start ← position
  let first ← specified
  let (read, mayRename) ←
    if first.node.name == "type" then typeSpecifier first
    else pure (⟨false, none, first⟩, true)
  let renames ← if mayRename then accept .kwAs else pure false
  let read ←
    if renames then do
      let name ← specified
      pure { read with property := some read.name.node, name }
    else pure read
  let text ← source
  let name ←
    if form != .importSpecifier then pure read.name.node
    else if !read.name.node.isIdentifier then do
      let place := read.name.node.start
      reportAt (text.skipTrivia place) .unexpected
      pure (.mk .part (.identifier "") place place [])
    else do
      if let some place := read.name.keyword then reportAt place .unexpected
      pure read.name.node
  finishMarked form (if read.typeOnly then .typeOnly else .plain) start
    (optional .part read.property ++ [name.as .name])

def specifiers (form member : Form) : Parse Node := do
  let start ← position
  let list ← bracketed .importOrExportSpecifiers (specifier member) .openBrace .closeBrace
  finish form start [list]

/-! ### Imports -/

/-- What an import binds, from its default name on. -/
def importClause (name : Option Node) (start : Nat) (typeOnly : Bool) : Parse Node := do
  let more ← if name.isNone then pure true else accept .comma
  let bindings ←
    if !more then pure []
    else if (← token) == .asterisk then do
      let first ← position
      advance
      expectQuietly .kwAs
      let bound ← identifier
      pure [← finish .namespaceImport first [bound.as .name]]
    else pure [← specifiers .namedImports .importSpecifier]
  finishMarked .importClause (if typeOnly then .typeOnly else .plain) start
    (optional .name name ++ bindings)

def importReference : Parse Node := do
  let isRequire ←
    if (← token) == .kwRequire then next (tokenIs (· == .openParen)) else pure false
  if isRequire then
    let start ← position
    advance
    expectQuietly .openParen
    let inner ← moduleSpecifier
    expectQuietly .closeParen
    finish .moduleReference start [inner]
  else qualifiedName false

/-- Whether `type` behind `import` sets the import apart, when `from` or a name follows it. -/
def isTypeImport : Parse Bool := do
  let named ← isIdentifier
  let fits ←
    if (← token) != .kwFrom then pure true
    else if named then next (tokenIs fun t => t == .kwFrom || t == .equals)
    else pure false
  if !fits then return false
  return named || (← token) == .asterisk || (← token) == .openBrace

def isDeferredImport : Parse Bool := do
  match ← token with
  | .kwFrom => next (tokenIs (· != .stringLiteral))
  | t => return t != .comma && t != .equals

def importDeclaration (start : Nat) (words : Option Node) : Parse Node := do
  expectQuietly .kwImport
  let clauseStart ← position
  let name? : Parse (Option Node) := do
    if ← isIdentifier then return some (← identifier) else return none
  let first ← name?
  let word := (first.map Node.name).getD ""
  let typeOnly ← if word == "type" then isTypeImport else pure false
  let deferred ← if word == "defer" then isDeferredImport else pure false
  let name ← if typeOnly || deferred then name? else pure first
  let t ← token
  if name.isSome && t != .comma && t != .kwFrom && !deferred then
    expectQuietly .equals
    let reference ← importReference
    endStatement
    finishMarked .importEquals (if typeOnly then .typeOnly else .plain) start
      (optional .modifiers words ++ optional .name name ++ [reference.as .reference])
  else
    let clause ←
      if name.isSome || t == .asterisk || t == .openBrace then do
        let clause ← importClause name clauseStart typeOnly
        expectQuietly .kwFrom
        pure [clause]
      else pure []
    let specifier ← moduleSpecifier
    let attributes ← importAttributes?
    endStatement
    finish .importDeclaration start
      (optional .modifiers words ++ clause ++ [specifier] ++ optional .part attributes)

/-! ### Exports -/

def exportAssignment (start : Nat) (words : Option Node) : Parse Node :=
  awaiting true do
    let whole ← accept .equals
    if !whole then expectQuietly .kwDefault
    let inner ← assignment
    endStatement
    finishMarked .exportAssignment (if whole then .wholeModule else .plain) start
      (optional .modifiers words ++ [inner.as .expression])

def globalExport (start : Nat) (words : Option Node) : Parse Node := do
  expectQuietly .kwAs
  expectQuietly .kwNamespace
  let name ← identifier
  endStatement
  finish .globalExport start (optional .modifiers words ++ [name.as .name])

def exportDeclaration (start : Nat) (words : Option Node) : Parse Node :=
  awaiting true do
    let typeOnly ← accept .kwType
    let clauseStart ← position
    let (clause, specifier) ←
      if ← accept .asterisk then do
        let clause ←
          if ← accept .kwAs then do
            let name ← stringOrName
            pure [← finish .namespaceExport clauseStart [name.as .name]]
          else pure []
        expectQuietly .kwFrom
        pure (clause, [← moduleSpecifier])
      else do
        let clause ← specifiers .namedExports .exportSpecifier
        let t ← token
        if t == .kwFrom || (t == .stringLiteral && !(← afterBreak)) then
          expectQuietly .kwFrom
          pure ([clause], [← moduleSpecifier])
        else pure ([clause], [])
    let attributes ← if specifier.isEmpty then pure none else importAttributes?
    endStatement
    finishMarked .exportDeclaration (if typeOnly then .typeOnly else .plain) start
      (optional .modifiers words ++ clause ++ specifier ++ optional .part attributes)

/-! ### Namespaces -/

def moduleBlock : Parse Node := do
  let start ← position
  if ← expect .openBrace then
    let statements ← members .blockStatements (goal .statement)
    expectQuietly .closeBrace
    finish .moduleBlock start [statements]
  else finish .moduleBlock start [← missingList]

/-- The body of a namespace: a block, or a dot and another name. -/
def namespaceBody : Parse Node := do
  if ← accept .dot then goal .namespaceRest else moduleBlock

def namespaceRestStep : Parse Node := do
  let start ← position
  let name ← identifierName
  let body ← namespaceBody
  finish .moduleDeclaration start [name.as .name, body.as .body]

/-- A module with its name in quotes, or the global one: a block, or nothing. -/
def ambientModule (start : Nat) (words : Option Node) (name : Node) : Parse Node := do
  let body ←
    if (← token) == .openBrace then some <$> moduleBlock
    else do
      endStatement
      pure none
  finish .moduleDeclaration start
    (optional .modifiers words ++ [name.as .name] ++ optional .body body)

def moduleDeclaration (start : Nat) (words : Option Node) : Parse Node := do
  if (← token) == .kwGlobal then
    let name ← identifier
    return ← ambientModule start words name
  if !(← accept .kwNamespace) then
    expectQuietly .kwModule
    if (← token) == .stringLiteral then
      let name ← literal
      return ← ambientModule start words name
  let name ← identifier
  let body ← namespaceBody
  finish .moduleDeclaration start
    (optional .modifiers words ++ [name.as .name, body.as .body])

end LineCensus.Script.Grammar
