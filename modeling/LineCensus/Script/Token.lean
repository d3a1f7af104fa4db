/-!
The tokens of a script. Keywords come in three classes: reserved words, which never name anything,
words that strict code reserves, and contextual words, which are names wherever the grammar leaves
them free.
-/

namespace LineCensus.Script

inductive Token where
  | endOfFile
  /-- A character that starts no token. -/
  | unknown
  /-- The whole rest of a file that is not text. -/
  | binary
  /-- A conflict marker met inside JSX text. -/
  | conflictMarker
  | identifier
  | privateIdentifier
  | numericLiteral
  | bigIntLiteral
  | stringLiteral
  | jsxText
  | regularExpression
  | plainTemplate
  | templateHead
  | templateMiddle
  | templateTail
  | openBrace
  | closeBrace
  | openParen
  | closeParen
  | openBracket
  | closeBracket
  | dot
  | dotDotDot
  | semicolon
  | comma
  | questionDot
  | lessThan
  | lessThanSlash
  | greaterThan
  | lessThanEquals
  | greaterThanEquals
  | equalsEquals
  | exclamationEquals
  | equalsEqualsEquals
  | exclamationEqualsEquals
  | arrow
  | plus
  | minus
  | asterisk
  | asteriskAsterisk
  | slash
  | percent
  | plusPlus
  | minusMinus
  | shiftLeft
  | shiftRight
  | shiftRightUnsigned
  | ampersand
  | bar
  | caret
  | exclamation
  | tilde
  | ampersandAmpersand
  | barBar
  | question
  | colon
  | at
  | questionQuestion
  | equals
  | plusEquals
  | minusEquals
  | asteriskEquals
  | asteriskAsteriskEquals
  | slashEquals
  | percentEquals
  | shiftLeftEquals
  | shiftRightEquals
  | shiftRightUnsignedEquals
  | ampersandEquals
  | barEquals
  | caretEquals
  | barBarEquals
  | ampersandAmpersandEquals
  | questionQuestionEquals
  -- reserved words
  | kwBreak
  | kwCase
  | kwCatch
  | kwClass
  | kwConst
  | kwContinue
  | kwDebugger
  | kwDefault
  | kwDelete
  | kwDo
  | kwElse
  | kwEnum
  | kwExport
  | kwExtends
  | kwFalse
  | kwFinally
  | kwFor
  | kwFunction
  | kwIf
  | kwImport
  | kwIn
  | kwInstanceof
  | kwNew
  | kwNull
  | kwReturn
  | kwSuper
  | kwSwitch
  | kwThis
  | kwThrow
  | kwTrue
  | kwTry
  | kwTypeof
  | kwVar
  | kwVoid
  | kwWhile
  | kwWith
  -- words that strict code reserves
  | kwImplements
  | kwInterface
  | kwLet
  | kwPackage
  | kwPrivate
  | kwProtected
  | kwPublic
  | kwStatic
  | kwYield
  -- contextual words
  | kwAbstract
  | kwAccessor
  | kwAs
  | kwAsserts
  | kwAssert
  | kwAny
  | kwAsync
  | kwAwait
  | kwBoolean
  | kwConstructor
  | kwDeclare
  | kwGet
  | kwInfer
  | kwIntrinsic
  | kwIs
  | kwKeyof
  | kwModule
  | kwNamespace
  | kwNever
  | kwOut
  | kwReadonly
  | kwRequire
  | kwNumber
  | kwObject
  | kwSatisfies
  | kwSet
  | kwString
  | kwSymbol
  | kwType
  | kwUndefined
  | kwUnique
  | kwUnknown
  | kwUsing
  | kwFrom
  | kwGlobal
  | kwBigint
  | kwOverride
  | kwOf
  | kwDefer
  deriving DecidableEq, Repr, Inhabited

namespace Token

def reservedWords : List (String × Token) := [
  ("break", kwBreak), ("case", kwCase), ("catch", kwCatch), ("class", kwClass),
  ("const", kwConst), ("continue", kwContinue), ("debugger", kwDebugger),
  ("default", kwDefault), ("delete", kwDelete), ("do", kwDo), ("else", kwElse),
  ("enum", kwEnum), ("export", kwExport), ("extends", kwExtends), ("false", kwFalse),
  ("finally", kwFinally), ("for", kwFor), ("function", kwFunction), ("if", kwIf),
  ("import", kwImport), ("in", kwIn), ("instanceof", kwInstanceof), ("new", kwNew),
  ("null", kwNull), ("return", kwReturn), ("super", kwSuper), ("switch", kwSwitch),
  ("this", kwThis), ("throw", kwThrow), ("true", kwTrue), ("try", kwTry),
  ("typeof", kwTypeof), ("var", kwVar), ("void", kwVoid), ("while", kwWhile),
  ("with", kwWith)]

/-- The words that are names unless the grammar asks for them at that place. -/
def softWords : List (String × Token) := [
  ("implements", kwImplements), ("interface", kwInterface), ("let", kwLet),
  ("package", kwPackage), ("private", kwPrivate), ("protected", kwProtected),
  ("public", kwPublic), ("static", kwStatic), ("yield", kwYield),
  ("abstract", kwAbstract), ("accessor", kwAccessor), ("as", kwAs), ("asserts", kwAsserts),
  ("assert", kwAssert), ("any", kwAny), ("async", kwAsync), ("await", kwAwait),
  ("boolean", kwBoolean), ("constructor", kwConstructor), ("declare", kwDeclare),
  ("get", kwGet), ("infer", kwInfer), ("intrinsic", kwIntrinsic), ("is", kwIs),
  ("keyof", kwKeyof), ("module", kwModule), ("namespace", kwNamespace), ("never", kwNever),
  ("out", kwOut), ("readonly", kwReadonly), ("require", kwRequire), ("number", kwNumber),
  ("object", kwObject), ("satisfies", kwSatisfies), ("set", kwSet), ("string", kwString),
  ("symbol", kwSymbol), ("type", kwType), ("undefined", kwUndefined), ("unique", kwUnique),
  ("unknown", kwUnknown), ("using", kwUsing), ("from", kwFrom), ("global", kwGlobal),
  ("bigint", kwBigint), ("override", kwOverride), ("of", kwOf), ("defer", kwDefer)]

def ofWord (word : String) : Token :=
  ((reservedWords ++ softWords).lookup word).getD identifier

def isReservedWord (t : Token) : Bool :=
  reservedWords.any fun entry => entry.2 == t

def isSoftWord (t : Token) : Bool :=
  softWords.any fun entry => entry.2 == t

def isKeyword (t : Token) : Bool := isReservedWord t || isSoftWord t

/-- The tokens that can spell a property or attribute name without quotes. -/
def isWord : Token → Bool
  | identifier | privateIdentifier => true
  | t => isKeyword t

def isLiteralPropertyName : Token → Bool
  | stringLiteral | numericLiteral | bigIntLiteral => true
  | t => isWord t

def isModifier : Token → Bool
  | kwAbstract | kwAccessor | kwAsync | kwConst | kwDeclare | kwDefault | kwExport | kwIn
  | kwPublic | kwPrivate | kwProtected | kwReadonly | kwStatic | kwOut | kwOverride => true
  | _ => false

def isMemberModifier : Token → Bool
  | kwPublic | kwPrivate | kwProtected | kwReadonly | kwOverride | kwStatic | kwAccessor => true
  | _ => false

def isAssignment : Token → Bool
  | equals | plusEquals | minusEquals | asteriskEquals | asteriskAsteriskEquals | slashEquals
  | percentEquals | shiftLeftEquals | shiftRightEquals | shiftRightUnsignedEquals
  | ampersandEquals | barEquals | caretEquals | barBarEquals | ampersandAmpersandEquals
  | questionQuestionEquals => true
  | _ => false

/-- How tightly a binary operator binds; zero for what is none. -/
def precedence : Token → Nat
  | questionQuestion => 4
  | barBar => 5
  | ampersandAmpersand => 6
  | bar => 7
  | caret => 8
  | ampersand => 9
  | equalsEquals | exclamationEquals | equalsEqualsEquals | exclamationEqualsEquals => 10
  | lessThan | greaterThan | lessThanEquals | greaterThanEquals | kwInstanceof | kwIn | kwAs
  | kwSatisfies => 11
  | shiftLeft | shiftRight | shiftRightUnsigned => 12
  | plus | minus => 13
  | asterisk | slash | percent => 14
  | asteriskAsterisk => 15
  | _ => 0

def isTemplateStart : Token → Bool
  | plainTemplate | templateHead => true
  | _ => false

end Token

end LineCensus.Script
