import LineCensus.Script.Token

/-!
The syntax tree of a script. A node is a token, an identifier, a list of nodes or one of the forms of
the grammar; it knows where it stands and what it is to the node above it. A node begins where the
white space and comments before its first token begin, and ends with its last token. Words and signs
that the form alone implies have no node of their own: they stand in the gaps between the children.
-/

namespace LineCensus.Script

inductive Form where
  | sourceFile
  -- names
  | qualifiedName
  | computedPropertyName
  -- types
  | typeReference
  | typePredicate
  | functionType
  | constructorType
  | typeQuery
  | typeLiteral
  | arrayType
  | tupleType
  | restType
  | optionalType
  | namedTupleMember
  | unionType
  | intersectionType
  | conditionalType
  | inferType
  | parenthesizedType
  | thisType
  | typeOperator
  | indexedAccessType
  | mappedType
  | literalType
  | templateType
  | templateTypeSpan
  | importType
  /-- A type in the notation of documentation comments. -/
  | docType
  | docNullableType
  | docFunctionType
  -- parts of signatures
  | typeParameter
  | parameter
  | decorator
  -- members
  | propertySignature
  | propertyDeclaration
  | methodSignature
  | methodDeclaration
  | staticBlock
  | constructorDeclaration
  | getAccessor
  | setAccessor
  | callSignature
  | constructSignature
  | indexSignature
  | emptyMember
  -- bindings
  | objectBinding
  | arrayBinding
  | bindingElement
  | omitted
  -- expressions
  | arrayLiteral
  | objectLiteral
  | propertyAccess
  | elementAccess
  | call
  | newExpression
  | taggedTemplate
  | typeAssertion
  | parenthesized
  | functionExpression
  | arrowFunction
  | deleteExpression
  | typeofExpression
  | voidExpression
  | awaitExpression
  | prefixUnary
  | postfixUnary
  | binary
  | conditional
  | template
  | templateSpan
  | yieldExpression
  | spread
  | classExpression
  | instantiation
  | asExpression
  | satisfiesExpression
  | nonNull
  | importMeta
  | newTarget
  | missingDeclaration
  -- object literals
  | propertyAssignment
  | shorthandProperty
  | spreadProperty
  -- statements
  | block
  | emptyStatement
  | variableStatement
  | expressionStatement
  | ifStatement
  | doStatement
  | whileStatement
  | forStatement
  | forInStatement
  | forOfStatement
  | continueStatement
  | breakStatement
  | returnStatement
  | withStatement
  | switchStatement
  | labeledStatement
  | throwStatement
  | tryStatement
  | debuggerStatement
  | caseBlock
  | caseClause
  | defaultClause
  | catchClause
  -- declarations
  | variableDeclaration
  | variableList
  | functionDeclaration
  | classDeclaration
  | heritageClause
  | interfaceDeclaration
  | typeAlias
  | enumDeclaration
  | enumMember
  | moduleDeclaration
  | moduleBlock
  | globalExport
  | importEquals
  | moduleReference
  | importDeclaration
  | importClause
  | namespaceImport
  | namedImports
  | importSpecifier
  | exportAssignment
  | exportDeclaration
  | namedExports
  | namespaceExport
  | exportSpecifier
  | importAttributes
  | importAttribute
  -- markup
  | markupElement
  | markupSelfClosing
  | markupOpening
  | markupClosing
  | markupFragment
  | markupOpeningFragment
  | markupClosingFragment
  | markupAttribute
  | markupAttributes
  | markupSpreadAttribute
  | markupExpression
  | markupNamespacedName
  deriving DecidableEq, Repr, Inhabited

/-- What sets one node of a form apart from the others of that form. -/
inductive Mark where
  | plain
  | typeOnly
  /-- An export that replaces the whole module. -/
  | wholeModule
  /-- A heritage clause that names interfaces. -/
  | implementing
  | optionalChain
  deriving DecidableEq, Repr, Inhabited

inductive Label where
  | token (token : Token)
  | identifier (name : String)
  /-- A list of nodes; not `present` when the grammar wanted one and none was there. -/
  | list (present : Bool)
  | form (form : Form) (mark : Mark)
  deriving DecidableEq, Repr, Inhabited

/-- What a node is to the node above it, where that matters. -/
inductive Role where
  | part
  | name
  | type
  | initializer
  | body
  | expression
  | modifiers
  | typeParameters
  | parameters
  | typeArguments
  | question
  | opening
  | closing
  | children
  | reference
  deriving DecidableEq, Repr, Inhabited

inductive Node where
  | mk (role : Role) (label : Label) (start stop : Nat) (children : List Node)
  deriving Inhabited

namespace Node

def role : Node → Role
  | mk role _ _ _ _ => role

def label : Node → Label
  | mk _ label _ _ _ => label

def start : Node → Nat
  | mk _ _ start _ _ => start

def stop : Node → Nat
  | mk _ _ _ stop _ => stop

def children : Node → List Node
  | mk _ _ _ _ children => children

def as (role : Role) : Node → Node
  | mk _ label start stop children => mk role label start stop children

/-- The form of a node; none for tokens, identifiers and lists. -/
def form? (node : Node) : Option Form :=
  match node.label with
  | .form form _ => some form
  | _ => none

def hasForm (form : Form) (node : Node) : Bool := node.form? == some form

def mark (node : Node) : Mark :=
  match node.label with
  | .form _ mark => mark
  | _ => .plain

def child? (role : Role) (node : Node) : Option Node :=
  node.children.find? fun child => child.role == role

/-- The members of the list in a role; empty if there is no such list. -/
def listOf (role : Role) (node : Node) : List Node :=
  ((node.child? role).map children).getD []

def isToken (token : Token) (node : Node) : Bool := node.label == .token token

def isIdentifier (node : Node) : Bool :=
  match node.label with
  | .identifier _ => true
  | _ => false

/-- The spelling of an identifier; empty for other nodes and for a missing name. -/
def name (node : Node) : String :=
  match node.label with
  | .identifier name => name
  | _ => ""

def isMissingList (node : Node) : Bool := node.label == .list false

/-- A node that stands nowhere in the text: it ends before it begins. -/
def unplaced (form : Form) (children : List Node) : Node :=
  mk .part (.form form .plain) 1 0 children

def isPlaced (node : Node) : Bool := decide (node.start ≤ node.stop)

/-- Whether the node takes up no text, as one does that stands for something missing. -/
def isEmpty (node : Node) : Bool := node.start == node.stop

end Node

end LineCensus.Script
