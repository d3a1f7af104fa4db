import LineCensus.Script.Tree

/-!
The syntax that files of the untyped dialect may not hold although the grammar reads it: types, and
all that exists for their sake; and decorators where none are allowed.
-/

namespace LineCensus.Script

namespace Untyped

def isRefused : Form → Bool
  | .importEquals | .interfaceDeclaration | .moduleDeclaration | .typeAlias | .enumDeclaration
  | .nonNull | .asExpression | .satisfiesExpression => true
  | _ => false

def needsBody : Form → Bool
  | .constructorDeclaration | .methodDeclaration | .functionDeclaration => true
  | _ => false

def canBeOptional : Form → Bool
  | .parameter | .propertyDeclaration | .methodDeclaration => true
  | _ => false

def isFunction : Form → Bool
  | .methodDeclaration | .constructorDeclaration | .getAccessor | .setAccessor
  | .functionExpression | .functionDeclaration | .arrowFunction => true
  | _ => false

def isClass : Form → Bool
  | .classDeclaration | .classExpression => true
  | _ => false

def canBeAnnotated : Form → Bool
  | .parameter | .propertyDeclaration | .methodSignature | .variableDeclaration => true
  | form => isFunction form

def takesTypeArguments : Form → Bool
  | .call | .newExpression | .instantiation | .markupSelfClosing | .markupOpening
  | .taggedTemplate => true
  | _ => false

/-- The forms in front of which the grammar reads decorators that are never allowed. -/
def refusesDecorators : Form → Bool
  | .propertyAssignment | .shorthandProperty | .functionDeclaration | .constructorDeclaration
  | .indexSignature | .staticBlock | .missingDeclaration | .variableStatement
  | .interfaceDeclaration | .typeAlias | .enumDeclaration | .moduleDeclaration | .importEquals
  | .importDeclaration | .globalExport | .exportDeclaration | .exportAssignment => true
  | _ => false

/-- The modifiers that exist for types only; `const` is one except before a variable. -/
def isTypeModifier (constAllowed : Bool) : Token → Bool
  | .kwConst => !constAllowed
  | .kwPublic | .kwPrivate | .kwProtected | .kwReadonly | .kwDeclare | .kwAbstract | .kwOverride
  | .kwIn | .kwOut => true
  | _ => false

def isDecorator (node : Node) : Bool := node.hasForm .decorator

/-- Whether a class has decorators both before and after `export`, or between `export` and
`default`. -/
def hasScatteredDecorators (words : List Node) : Bool :=
  let before := words.takeWhile fun word => !word.isToken .kwExport
  let fromExport := words.dropWhile fun word => !word.isToken .kwExport
  if fromExport.isEmpty then false
  else if before.any isDecorator then fromExport.any isDecorator
  else
    let beforeDefault := fromExport.takeWhile fun word => !word.isToken .kwDefault
    beforeDefault.length < fromExport.length && beforeDefault.any isDecorator

def misplacesDecorators (form : Form) (words : List Node) : Bool :=
  if refusesDecorators form || form == .parameter then words.any isDecorator
  else form == .classDeclaration && hasScatteredDecorators words

def hasTypeModifier (form : Form) (words : List Node) : Bool :=
  let tokens := words.filterMap fun word =>
    match word.label with
    | .token token => some token
    | _ => none
  match form with
  | .parameter => !tokens.isEmpty
  | .propertyDeclaration => tokens.any fun token => token != .kwStatic && token != .kwAccessor
  | .variableStatement => tokens.any (isTypeModifier true)
  | _ => (isFunction form || isClass form) && tokens.any (isTypeModifier false)

/-- Whether decorators among the modifiers of a form are left unread. -/
def skipsModifiers : Form → Bool
  | .variableStatement | .propertyDeclaration => true
  | form => isFunction form || isClass form

def isRefusedNode (form : Form) (mark : Mark) (children : List Node) : Bool :=
  isRefused form || mark == .typeOnly || mark == .wholeModule || mark == .implementing
    || (needsBody form && !children.any (·.role == .body))

/-- Whether a node is refused for what it is to the form above it. -/
def isRefusedPart (form : Form) (node : Node) : Bool :=
  match node.role with
  | .question => canBeOptional form
  | .type => canBeAnnotated form
  | .typeParameters => isFunction form || isClass form
  | .typeArguments => takesTypeArguments form
  | .modifiers => misplacesDecorators form node.children || hasTypeModifier form node.children
  | _ => false

mutual

/-- Whether a node holds syntax that the untyped dialect refuses. -/
def refuses : Node → Bool
  | .mk _ (.form form mark) _ _ children =>
    isRefusedNode form mark children || refusesPart (some form) children
  | .mk _ _ _ _ children => refusesPart none children

def refusesPart (above : Option Form) : List Node → Bool
  | [] => false
  | node :: rest =>
    (above.map fun form => isRefusedPart form node).getD false
      || (!(node.role == .modifiers && (above.map skipsModifiers).getD false) && refuses node)
      || refusesPart above rest

end

end Untyped

end LineCensus.Script
