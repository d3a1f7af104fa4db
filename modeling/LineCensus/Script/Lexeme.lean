import LineCensus.Script.Fault
import LineCensus.Script.Identifier
import LineCensus.Script.Trivia

/-!
Reading single tokens. `Lexeme.scan` reads the token at a position; the functions after it read the
same place again where the grammar gives the characters another meaning: a slash that opens a
regular expression, a brace that goes on with a template, text between markup tags.
-/

namespace LineCensus.Script

structure Dialect where
  markup : Bool
  /-- Type arguments are not read in expressions, and type syntax is reported. -/
  untyped : Bool
  deriving DecidableEq, Repr

structure Lexeme where
  token : Token
  /-- Where the white space and comments before the token begin. -/
  fullStart : Nat
  start : Nat
  stop : Nat
  afterBreak : Bool := false
  escaped : Bool := false
  /-- The spelling holds an escape that has no meaning. -/
  invalid : Bool := false
  /-- The name or the text that the token spells. -/
  value : String := ""
  deriving Repr, Inhabited

/-- What reading one token has gathered so far; `problems` is newest first. -/
structure Draft where
  position : Nat
  problems : List Problem := []
  escaped : Bool := false
  invalid : Bool := false
  value : String := ""

namespace Draft

def report (draft : Draft) (position : Nat) (fault : Fault) : Draft :=
  { draft with problems := ⟨position, fault⟩ :: draft.problems }

def reportHere (draft : Draft) (fault : Fault) : Draft := draft.report draft.position fault

def add (draft : Draft) (text : String) : Draft := { draft with value := draft.value ++ text }

def moveTo (draft : Draft) (position : Nat) : Draft := { draft with position }

end Draft

def hexValue (c : Char) : Option Nat :=
  if isAsciiDigit c then some (c.toNat - '0'.toNat)
  else if 'a' ≤ c && c ≤ 'f' then some (c.toNat - 'a'.toNat + 10)
  else if 'A' ≤ c && c ≤ 'F' then some (c.toNat - 'A'.toNat + 10)
  else none

def isHexDigit (c : Char) : Bool := (hexValue c).isSome

def isOctalDigit (c : Char) : Bool := '0' ≤ c && c ≤ '7'

def hexNumber (digits : String) : Nat :=
  digits.foldl (fun total c => total * 16 + (hexValue c).getD 0) 0

/-- The character with a code, if the code is one. -/
def charOfCode (code : Nat) : Option Char :=
  if code.isValidChar then some (Char.ofNat code) else none

namespace Source

/-! ### Escapes -/

/-- The code of the escape `\uXXXX` at a position, if one stands there. -/
def shortEscape (source : Source) (position : Nat) : Option Nat :=
  if source.startsAt position ['\\', 'u'] && position + 5 < source.size then
    let digits := source.slice (position + 2) (position + 6)
    if digits.all isHexDigit then some (hexNumber digits) else none
  else none

/-- The code of the escape `\u{X…}` whose digits begin here, if there are any; the closing brace is
not looked at. -/
def longEscape (source : Source) (position : Nat) : Option Nat :=
  if source.startsAt position ['\\', 'u', '{'] then
    let stop := source.skipWhile isHexDigit (position + 3)
    if stop == position + 3 then none else some (hexNumber (source.slice (position + 3) stop))
  else none

def readLongEscape (source : Source) (report : Bool) (draft : Draft) : Draft :=
  let start := draft.position
  let digits := start + 3
  let stop := source.skipWhile isHexDigit digits
  let code := hexNumber (source.slice digits stop)
  let note (d : Draft) (fault : Fault) : Draft :=
    let d := { d with invalid := true }
    if report then d.reportHere fault else d
  let draft := draft.moveTo stop
  let wrongValue := stop == digits || 0x10ffff < code
  let draft := if wrongValue then note draft .malformedEscape else draft
  if source.size ≤ stop then (note draft .unexpectedEnd).add (source.slice start stop)
  else if source.char stop == '}' then
    let draft := draft.moveTo (stop + 1)
    if wrongValue then draft.add (source.slice start (stop + 1))
    else { draft with escaped := true }.add (((charOfCode code).map String.singleton).getD "")
  else (note draft .malformedEscape).add (source.slice start stop)

/-- Read the escape sequence of a string or template that begins where the draft stands. Faults are
reported only if `report` holds, but always noted. -/
def readEscape (source : Source) (report : Bool) (draft : Draft) : Draft :=
  let start := draft.position
  let note (d : Draft) (position : Nat) (fault : Fault) : Draft :=
    let d := { d with invalid := true }
    if report then d.report position fault else d
  if source.size ≤ start + 1 then (draft.moveTo (start + 1)).report (start + 1) .unexpectedEnd
  else
    let c := source.char (start + 1)
    let next := start + 2
    let hexDigits (count : Nat) : Draft :=
      let stop := min (source.skipWhile isHexDigit next) (next + count)
      if stop == next + count then
        { draft.moveTo stop with escaped := draft.escaped || count == 4 }.add
          (((charOfCode (hexNumber (source.slice next stop))).map String.singleton).getD "")
      else note ((draft.moveTo stop).add (source.slice start stop)) stop .malformedEscape
    if c == '0' && !isAsciiDigit (source.char next) then (draft.moveTo next).add "\x00"
    else if isOctalDigit c then
      let most := if c ≤ '3' then next + 2 else next + 1
      let stop := min (source.skipWhile isOctalDigit next) most
      note (draft.moveTo stop) start .malformedEscape
    else if c == '8' || c == '9' then
      note ((draft.moveTo next).add (String.singleton c)) start .malformedEscape
    else if c == 'u' then
      if source.char next == '{' then source.readLongEscape report draft else hexDigits 4
    else if c == 'x' then hexDigits 2
    else if c == '\r' && source.char next == '\n' then draft.moveTo (next + 1)
    else if isLineBreak c then draft.moveTo next
    else
      let meant :=
        if c == 'b' then "\x08" else if c == 't' then "\t" else if c == 'n' then "\n"
        else if c == 'v' then "\x0b" else if c == 'f' then "\x0c" else if c == 'r' then "\r"
        else String.singleton c
      (draft.moveTo next).add meant

/-! ### Names -/

def readNameParts (source : Source) (draft : Draft) : Draft :=
  let start := draft.position
  let stop := source.skipWhile isIdentifierPart start
  let draft := (draft.moveTo stop).add (source.slice start stop)
  let isPart (code : Nat) : Bool := ((charOfCode code).map isIdentifierPart).getD false
  let next : Option Draft :=
    if ((source.longEscape stop).map isPart).getD false then
      some (source.readLongEscape true draft)
    else match source.shortEscape stop with
      | some code =>
        if isPart code then
          some ({ draft with escaped := true, position := stop + 6 }.add
            (((charOfCode code).map String.singleton).getD ""))
        else none
      | none => none
  match next with
  | none => draft
  | some after =>
    if start < after.position ∧ start < source.size then source.readNameParts after else after
termination_by source.size - draft.position

/-- Read a name that begins with the escape at which the draft stands; none if no name can. -/
def readEscapedName (source : Source) (draft : Draft) : Option Draft :=
  let starts (code : Nat) : Bool := ((charOfCode code).map isIdentifierStart).getD false
  if ((source.longEscape draft.position).map starts).getD false then
    some (source.readNameParts (source.readLongEscape true draft))
  else match source.shortEscape draft.position with
    | some code =>
      if starts code then
        some (source.readNameParts
          ({ draft with escaped := true, position := draft.position + 6 }.add
            (((charOfCode code).map String.singleton).getD "")))
      else none
    | none => none

/-! ### Numbers -/

/-- Read digits of one base with single separators between them. `firstAllowed` tells whether a
separator may come first, which it never may in well-formed text. -/
def readDigits (source : Source) (isDigit : Char → Bool) (draft : Draft) : Draft :=
  let rec go (allowed afterSeparator : Bool) (position : Nat) (draft : Draft) : Draft :=
    if position < source.size then
      let c := source.char position
      if c == '_' then
        if allowed then go false true (position + 1) draft
        else go false afterSeparator (position + 1) (draft.report position .malformedNumber)
      else if isDigit c then go true false (position + 1) (draft.add (String.singleton c))
      else draft.moveTo position
    else draft.moveTo position
  termination_by source.size - position
  let draft := go false false draft.position draft
  if source.char (draft.position - 1) == '_' then
    draft.report (draft.position - 1) .malformedNumber
  else draft

/-- A letter directly after a number is a fault; a lone `n` is taken along with the number. -/
def checkAfterNumber (source : Source) (start : Nat) (draft : Draft) : Draft :=
  if isIdentifierStart (source.char draft.position) && draft.position < source.size then
    let name := source.readNameParts { draft with value := "" }
    let reread : Draft := { name with value := draft.value }
    if name.value == "n" then reread.report start .malformedNumber
    else { reread.report draft.position .malformedNumber with position := draft.position }
  else draft

def readBigSuffix (source : Source) (draft : Draft) : Token × Draft :=
  if source.char draft.position == 'n' then (.bigIntLiteral, draft.moveTo (draft.position + 1))
  else (.numericLiteral, draft)

/-- Read a decimal number, or an octal one in the old notation, which is a fault. -/
def readDecimal (source : Source) (previous : Token) (draft : Draft) : Token × Draft :=
  let start := draft.position
  let legacyStop := source.skipWhile isAsciiDigit (start + 1)
  let leadingZero := source.char start == '0' && source.char (start + 1) != '_'
    && start + 1 < legacyStop
  if leadingZero && (source.slice (start + 1) legacyStop).all isOctalDigit then
    let reported := if previous == .minus then start - 1 else start
    (.numericLiteral, (draft.moveTo legacyStop).report reported .malformedNumber)
  else
    let draft :=
      if leadingZero then draft.moveTo legacyStop
      else if source.char start == '0' && source.char (start + 1) == '_' then
        source.readDigits isAsciiDigit (draft.report (start + 1) .malformedNumber)
      else if source.char start == '0' then draft.moveTo (start + 1)
      else source.readDigits isAsciiDigit draft
    let hasFraction := source.char draft.position == '.'
    let draft :=
      if hasFraction then source.readDigits isAsciiDigit (draft.moveTo (draft.position + 1))
      else draft
    let mantissaStop := draft.position
    let hasExponent := source.char mantissaStop == 'e' || source.char mantissaStop == 'E'
    let draft :=
      if hasExponent then
        let sign := source.char (mantissaStop + 1)
        let first := if sign == '+' || sign == '-' then mantissaStop + 2 else mantissaStop + 1
        let read := source.readDigits isAsciiDigit { draft.moveTo first with value := "" }
        if read.value.isEmpty then read.reportHere .malformedNumber else read
      else draft
    if leadingZero then (.numericLiteral, draft.report start .malformedNumber)
    else if hasFraction || hasExponent then
      (.numericLiteral, source.checkAfterNumber start draft)
    else
      let (token, draft) := source.readBigSuffix draft
      (token, source.checkAfterNumber start draft)

def readNumber (source : Source) (previous : Token) (draft : Draft) : Token × Draft :=
  let start := draft.position
  let based (isDigit : Char → Bool) : Token × Draft :=
    let read := source.readDigits isDigit (draft.moveTo (start + 2))
    let read := if read.value.isEmpty then read.reportHere .malformedNumber else read
    source.readBigSuffix read
  if source.char start == '0' && start + 2 < source.size then
    let mark := source.char (start + 1)
    if mark == 'x' || mark == 'X' then based isHexDigit
    else if mark == 'b' || mark == 'B' then based fun c => c == '0' || c == '1'
    else if mark == 'o' || mark == 'O' then based isOctalDigit
    else source.readDecimal previous draft
  else source.readDecimal previous draft

/-! ### Strings, templates and regular expressions -/

/-- Read a string whose opening quote stands where the draft stands. Without `escapes` a backslash
and a line break are ordinary characters, as in markup attributes. -/
def readString (source : Source) (escapes : Bool) (draft : Draft) : Draft :=
  let quote := source.char draft.position
  let rec go (draft : Draft) : Draft :=
    if draft.position < source.size then
      let c := source.char draft.position
      if c == quote then draft.moveTo (draft.position + 1)
      else if c == '\\' && escapes then
        let after := source.readEscape true draft
        if draft.position < after.position then go after else after
      else if (c == '\n' || c == '\r') && escapes then draft.reportHere .unterminatedString
      else go ((draft.moveTo (draft.position + 1)).add (String.singleton c))
    else draft.reportHere .unterminatedString
  termination_by source.size - draft.position
  decreasing_by all_goals (simp_all +zetaDelta [Draft.moveTo, Draft.add]; omega)
  go (draft.moveTo (draft.position + 1))

/-- Read a piece of a template: up to the closing backtick or the next substitution. The piece
begins with a backtick, or with the brace that closes a substitution. -/
def readTemplate (source : Source) (report : Bool) (draft : Draft) : Token × Draft :=
  let opens := source.char draft.position == '\x60'
  let last : Token := if opens then .plainTemplate else .templateTail
  let rec go (draft : Draft) : Token × Draft :=
    if draft.position < source.size then
      let c := source.char draft.position
      if c == '\x60' then (last, draft.moveTo (draft.position + 1))
      else if source.startsAt draft.position ['$', '{'] then
        (if opens then .templateHead else .templateMiddle, draft.moveTo (draft.position + 2))
      else if c == '\\' then
        let after := source.readEscape report draft
        if draft.position < after.position then go after else (last, after)
      else go (draft.moveTo (draft.position + 1))
    else (last, draft.reportHere .unterminatedTemplate)
  termination_by source.size - draft.position
  decreasing_by all_goals (simp_all +zetaDelta [Draft.moveTo]; omega)
  go (draft.moveTo (draft.position + 1))

/-- Where the body of a regular expression ends: at its closing slash, or at the end of the line
when there is none. -/
def patternBodyEnd (source : Source) (position : Nat) : Nat :=
  let rec go (inEscape inClass : Bool) (position : Nat) : Nat :=
    if position < source.size then
      let c := source.char position
      if isLineBreak c then position
      else if inEscape then go false inClass (position + 1)
      else if c == '/' && !inClass then position
      else go (c == '\\') (c == '[' || (inClass && c != ']')) (position + 1)
    else position
  termination_by source.size - position
  go false false position

/-- Where the useful part of an unfinished regular expression ends: before the first bracket that
closes nothing inside it. -/
def brokenPatternEnd (source : Source) (start stop : Nat) : Nat :=
  let rec go (inEscape : Bool) (classDepth : Nat) (inCount : Bool) (groupDepth position : Nat) :
      Nat :=
    if position < stop then
      let c := source.char position
      if inEscape then go false classDepth inCount groupDepth (position + 1)
      else if c == '\\' then go true classDepth inCount groupDepth (position + 1)
      else if c == '[' then go false (classDepth + 1) inCount groupDepth (position + 1)
      else if c == ']' && classDepth != 0 then
        go false (classDepth - 1) inCount groupDepth (position + 1)
      else if classDepth != 0 then go false classDepth inCount groupDepth (position + 1)
      else if c == '{' then go false 0 true groupDepth (position + 1)
      else if c == '}' && inCount then go false 0 false groupDepth (position + 1)
      else if inCount then go false 0 true groupDepth (position + 1)
      else if c == '(' then go false 0 false (groupDepth + 1) (position + 1)
      else if c == ')' && groupDepth != 0 then go false 0 false (groupDepth - 1) (position + 1)
      else if c == ')' || c == ']' || c == '}' then position
      else go false 0 false groupDepth (position + 1)
    else position
  termination_by stop - position
  go false 0 false 0 start

/-- The position after which only white space and semicolons stand before `stop`. -/
def trimPatternEnd (source : Source) : Nat → Nat
  | 0 => 0
  | stop + 1 =>
    let c := source.char stop
    if isSpaceOrBreak c || c == ';' then source.trimPatternEnd stop else stop + 1

end Source

namespace Lexeme

def ofDraft (token : Token) (fullStart start : Nat) (afterBreak : Bool) (draft : Draft) :
    Lexeme × List Problem :=
  ({ token, fullStart, start, stop := draft.position, afterBreak, escaped := draft.escaped,
     invalid := draft.invalid, value := draft.value }, draft.problems.reverse)

def punctuator (source : Source) (dialect : Dialect) (position : Nat) : Option (Token × Nat) :=
  let at1 := source.char (position + 1)
  let at2 := source.char (position + 2)
  match source.char position with
  | '{' => some (.openBrace, 1)
  | '}' => some (.closeBrace, 1)
  | '(' => some (.openParen, 1)
  | ')' => some (.closeParen, 1)
  | '[' => some (.openBracket, 1)
  | ']' => some (.closeBracket, 1)
  | ';' => some (.semicolon, 1)
  | ',' => some (.comma, 1)
  | ':' => some (.colon, 1)
  | '~' => some (.tilde, 1)
  | '@' => some (.at, 1)
  | '!' =>
    if at1 == '=' then
      if at2 == '=' then some (.exclamationEqualsEquals, 3) else some (.exclamationEquals, 2)
    else some (.exclamation, 1)
  | '%' => if at1 == '=' then some (.percentEquals, 2) else some (.percent, 1)
  | '&' =>
    if at1 == '&' then
      if at2 == '=' then some (.ampersandAmpersandEquals, 3) else some (.ampersandAmpersand, 2)
    else if at1 == '=' then some (.ampersandEquals, 2)
    else some (.ampersand, 1)
  | '*' =>
    if at1 == '=' then some (.asteriskEquals, 2)
    else if at1 == '*' then
      if at2 == '=' then some (.asteriskAsteriskEquals, 3) else some (.asteriskAsterisk, 2)
    else some (.asterisk, 1)
  | '+' =>
    if at1 == '+' then some (.plusPlus, 2)
    else if at1 == '=' then some (.plusEquals, 2)
    else some (.plus, 1)
  | '-' =>
    if at1 == '-' then some (.minusMinus, 2)
    else if at1 == '=' then some (.minusEquals, 2)
    else some (.minus, 1)
  | '.' => if at1 == '.' && at2 == '.' then some (.dotDotDot, 3) else some (.dot, 1)
  | '/' => if at1 == '=' then some (.slashEquals, 2) else some (.slash, 1)
  | '<' =>
    if at1 == '<' then
      if at2 == '=' then some (.shiftLeftEquals, 3) else some (.shiftLeft, 2)
    else if at1 == '=' then some (.lessThanEquals, 2)
    else if dialect.markup && at1 == '/' && at2 != '*' then some (.lessThanSlash, 2)
    else some (.lessThan, 1)
  | '=' =>
    if at1 == '=' then
      if at2 == '=' then some (.equalsEqualsEquals, 3) else some (.equalsEquals, 2)
    else if at1 == '>' then some (.arrow, 2)
    else some (.equals, 1)
  | '>' => some (.greaterThan, 1)
  | '?' =>
    if at1 == '.' && !isAsciiDigit at2 then some (.questionDot, 2)
    else if at1 == '?' then
      if at2 == '=' then some (.questionQuestionEquals, 3) else some (.questionQuestion, 2)
    else some (.question, 1)
  | '^' => if at1 == '=' then some (.caretEquals, 2) else some (.caret, 1)
  | '|' =>
    if at1 == '|' then
      if at2 == '=' then some (.barBarEquals, 3) else some (.barBar, 2)
    else if at1 == '=' then some (.barEquals, 2)
    else some (.bar, 1)
  | _ => none

/-- Read the token that begins exactly where the draft stands, before the end of the text. -/
def readToken (source : Source) (dialect : Dialect) (previous : Token) (draft : Draft) :
    Token × Draft :=
  let start := draft.position
  let c := source.char start
  let named (read : Draft) : Token × Draft := (Token.ofWord read.value, read)
  if c == '"' || c == '\'' then (.stringLiteral, source.readString true draft)
  else if c == '\x60' then source.readTemplate false draft
  else if isAsciiDigit c || (c == '.' && isAsciiDigit (source.char (start + 1))) then
    source.readNumber previous draft
  else if isIdentifierStart c then
    named (source.readNameParts ((draft.moveTo (start + 1)).add (String.singleton c)))
  else if c == '\\' then
    match source.readEscapedName draft with
    | some read => named read
    | none => (.unknown, (draft.reportHere .invalidCharacter).moveTo (start + 1))
  else if c == '#' then
    let after := (draft.moveTo (start + 1)).add "#"
    if start != 0 && source.char (start + 1) == '!' then
      (.unknown, (draft.reportHere .misplacedShebang).moveTo (start + 1))
    else match source.readEscapedName after with
      | some read => (.privateIdentifier, read)
      | none =>
        if isIdentifierStart (source.char (start + 1)) then
          (.privateIdentifier, source.readNameParts after)
        else (.privateIdentifier, after.report start .invalidCharacter)
  else if c == '\ufffd' then
    (.binary, (draft.report 0 .binaryContent).moveTo source.size)
  else match punctuator source dialect start with
    | some (token, length) => (token, draft.moveTo (start + length))
    | none => (.unknown, (draft.reportHere .invalidCharacter).moveTo (start + 1))

/-- How far into a text the mark of broken decoding is looked for. -/
def binaryProbe : Nat := 256

/-- Read the next token at or after the draft's position; `fullStart` is where the search began. -/
def scanFrom (source : Source) (dialect : Dialect) (previous : Token) (fullStart : Nat)
    (afterBreak : Bool) (draft : Draft) : Lexeme × List Problem :=
  let position := draft.position
  if source.size ≤ position then ofDraft .endOfFile fullStart position afterBreak draft
  else if position == 0 && (source.slice 0 binaryProbe).any (· == '\ufffd') then
    ofDraft .binary fullStart 0 afterBreak ((draft.report 0 .binaryContent).moveTo source.size)
  else match source.triviaPiece position with
    | none =>
      let (token, draft) := readToken source dialect previous draft
      ofDraft token fullStart position afterBreak draft
    | some next =>
      let c := source.char position
      let isBlock := source.startsAt position ['/', '*']
      let breaks := isLineBreak c ||
        (isBlock && (source.slice position next).any isLineBreak)
      let draft :=
        if isBlock && (source.blockCommentEnd (position + 2)).isNone then
          draft.report next .unclosedComment
        else if !isSpaceOrBreak c && source.conflictMarkerAt position then
          draft.report position .conflictMarker
        else draft
      if position < next ∧ position < source.size then
        scanFrom source dialect previous fullStart (afterBreak || breaks) (draft.moveTo next)
      else ofDraft .endOfFile fullStart position afterBreak draft
termination_by source.size - draft.position
decreasing_by simp_all [Draft.moveTo]; omega

/-- The next token at or after a position, and the problems met on the way, in order. -/
def scan (source : Source) (dialect : Dialect) (previous : Token) (position : Nat) :
    Lexeme × List Problem :=
  scanFrom source dialect previous position false { position }

/-! ### Reading a token again -/

/-- Read the same token with another last character. -/
def upTo (lexeme : Lexeme) (token : Token) (stop : Nat) : Lexeme := { lexeme with token, stop }

/-- Take as many characters into a `>` as form one operator. -/
def mergeGreater (source : Source) (lexeme : Lexeme) : Lexeme :=
  if lexeme.token != .greaterThan then lexeme
  else
    let stop := lexeme.stop
    if source.startsAt stop ['>', '>', '='] then lexeme.upTo .shiftRightUnsignedEquals (stop + 3)
    else if source.startsAt stop ['>', '>'] then lexeme.upTo .shiftRightUnsigned (stop + 2)
    else if source.startsAt stop ['>', '='] then lexeme.upTo .shiftRightEquals (stop + 2)
    else if source.startsAt stop ['>'] then lexeme.upTo .shiftRight (stop + 1)
    else if source.startsAt stop ['='] then lexeme.upTo .greaterThanEquals (stop + 1)
    else lexeme

def splitLess (lexeme : Lexeme) : Lexeme :=
  if lexeme.token == .shiftLeft then lexeme.upTo .lessThan (lexeme.start + 1) else lexeme

def splitQuestion (lexeme : Lexeme) : Lexeme :=
  if lexeme.token == .questionQuestion then lexeme.upTo .question (lexeme.start + 1) else lexeme

def splitAsterisk (lexeme : Lexeme) : Lexeme :=
  if lexeme.token == .asteriskEquals then lexeme.upTo .asterisk (lexeme.start + 1) else lexeme

def asPattern (source : Source) (lexeme : Lexeme) : Lexeme × List Problem :=
  let bodyStart := lexeme.start + 1
  let bodyEnd := source.patternBodyEnd bodyStart
  if bodyEnd < source.size && source.char bodyEnd == '/' then
    let stop := source.skipWhile isIdentifierPart (bodyEnd + 1)
    (lexeme.upTo .regularExpression stop, [])
  else
    let stop := source.trimPatternEnd (source.brokenPatternEnd bodyStart bodyEnd)
    (lexeme.upTo .regularExpression stop, [⟨lexeme.start, .unterminatedPattern⟩])

/-- Read a closing brace or a template again as a piece of a template, reporting its escapes if
`report` holds. -/
def asTemplate (source : Source) (report : Bool) (lexeme : Lexeme) : Lexeme × List Problem :=
  let (token, draft) := source.readTemplate report { position := lexeme.start }
  ofDraft token lexeme.fullStart lexeme.start lexeme.afterBreak draft

/-! ### Markup -/

/-- Go on reading a name with the hyphens that markup names may hold. -/
def asMarkupName (source : Source) (lexeme : Lexeme) : Lexeme × List Problem :=
  if !lexeme.token.isWord then (lexeme, [])
  else
    let rec go (draft : Draft) : Draft :=
      if draft.position < source.size then
        if source.char draft.position == '-' then
          go ((draft.moveTo (draft.position + 1)).add "-")
        else
          let after := source.readNameParts draft
          if draft.position < after.position then go after else after
      else draft
    termination_by source.size - draft.position
    decreasing_by all_goals (simp_all +zetaDelta [Draft.moveTo, Draft.add]; omega)
    let draft := go { position := lexeme.stop, value := lexeme.value, escaped := lexeme.escaped }
    ({ lexeme with token := Token.ofWord draft.value, stop := draft.position,
                   escaped := draft.escaped, value := draft.value }, draft.problems.reverse)

/-- Read the value of a markup attribute, which begins right where its equals sign ends. -/
def markupValue (source : Source) (dialect : Dialect) (lexeme : Lexeme) :
    Lexeme × List Problem :=
  let position := lexeme.stop
  let c := source.char position
  if c == '"' || c == '\'' then
    ofDraft .stringLiteral position lexeme.start false (source.readString false { position })
  else scan source dialect lexeme.token position

def markupTextProblems (source : Source) (start stop : Nat) : List Problem :=
  (List.range (stop - start)).filterMap fun offset =>
    let c := source.char (start + offset)
    if c == '>' || c == '}' then some ⟨start + offset, .strayInJsxText⟩ else none

def markupTextEnd (source : Source) (position : Nat) : Nat :=
  source.skipWhile (fun c => c != '{' && c != '<') position

def scanMarkup (source : Source) (position : Nat) : Lexeme × List Problem :=
  let simple (token : Token) (stop : Nat) : Lexeme × List Problem :=
    ({ token, fullStart := position, start := position, stop }, [])
  if source.size ≤ position then simple .endOfFile position
  else if source.startsAt position ['<', '/'] then simple .lessThanSlash (position + 2)
  else if source.char position == '<' then simple .lessThan (position + 1)
  else if source.char position == '{' then simple .openBrace (position + 1)
  else
    let stop := markupTextEnd source position
    let problems := markupTextProblems source position stop
    if stop < source.size && source.char stop == '<' && source.conflictMarkerAt stop then
      ({ token := .conflictMarker, fullStart := position, start := position,
         stop := source.conflictMarkerEnd stop }, problems ++ [⟨stop, .conflictMarker⟩])
    else ({ token := .jsxText, fullStart := position, start := position, stop }, problems)

end Lexeme

end LineCensus.Script
