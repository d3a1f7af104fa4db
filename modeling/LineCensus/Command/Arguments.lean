import LineCensus.Command.Options

/-!
Command lines read: what a list of arguments asks for. Options come in any order among other
arguments. An option that is not known does not stop the reading, since what comes later may still ask
for the version or for help.
-/

namespace LineCensus.Command

/-- What an argument is when it is not taken as a value. -/
inductive Form where
  | option (choice : Choice)
  | optionWith (choice : Choice) (value : List Char)
  /-- An option without values and more letters behind it. -/
  | optionAnd (choice : Choice) (more : List Char)
  | unknown
  | operand
  deriving DecidableEq, Repr

def looksLikeOption : List Char → Bool
  | '-' :: _ :: _ => true
  | _ => false

def Form.ofLetter (letter : Char) (more : List Char) : Option Form :=
  (choiceOfLetter letter).map fun choice =>
    if choice.values.areExpected then .optionWith choice more else .optionAnd choice more

/-- The option and the value on the two sides of the first equals sign of an argument, if it is the
long form of an option that takes a value. -/
def assignment? (argument : List Char) : Option (Choice × List Char) :=
  match argument with
  | '-' :: '-' :: word =>
    let name := word.takeWhile (· != '=')
    match word.drop name.length with
    | '=' :: value =>
      ((choiceOf (longForm (String.ofList name))).filter (·.values.areExpected)).map (·, value)
    | _ => none
  | _ => none

def Form.ofLetters : List Char → Option Form
  | '-' :: letter :: next :: more => if letter == '-' then none else ofLetter letter (next :: more)
  | _ => none

def Form.of (argument : List Char) : Form :=
  if looksLikeOption argument then
    match choiceOf (String.ofList argument) with
    | some choice => .option choice
    | none =>
      match ofLetters argument with
      | some form => form
      | none =>
        match assignment? argument with
        | some (choice, value) => .optionWith choice value
        | none => .unknown
  else .operand

structure Progress where
  request : Request
  operands : List String
  /-- The first option that is not known and all operands and options behind it that are not
  either. -/
  unknown : List String
  deriving DecidableEq, Repr

namespace Progress

def start : Progress := ⟨.standard, [], []⟩

def choose (progress : Progress) (choice : Choice) (value : List Char) : Progress :=
  { progress with request := progress.request.choose choice.topic (String.ofList value) }

def addUnknown (progress : Progress) (argument : List Char) : Progress :=
  { progress with unknown := progress.unknown ++ [String.ofList argument] }

def addOperand (progress : Progress) (argument : List Char) : Progress :=
  if progress.unknown.isEmpty then
    { progress with operands := progress.operands ++ [String.ofList argument] }
  else progress.addUnknown argument

/-- The arguments behind the one that ends the options. -/
def finish (progress : Progress) (arguments : List (List Char)) : Progress :=
  if progress.unknown.isEmpty then
    { progress with operands := progress.operands ++ arguments.map String.ofList }
  else
    { progress with unknown := progress.unknown ++ "--" :: arguments.map String.ofList }

end Progress

/-- What a command line is answered with instead of an analysis. -/
inductive Reply where
  | version
  | help
  | missingValue (choice : Choice)
  | unknownOption (argument : String)
  deriving DecidableEq, Repr

def sizeOfArguments : List (List Char) → Nat
  | [] => 0
  | argument :: rest => argument.length + 1 + sizeOfArguments rest

/-- Letters put back are fewer than those of the argument that they come from. -/
theorem Form.length_of_option_and {argument more : List Char} {choice : Choice}
    (form : Form.of argument = .optionAnd choice more) : more.length + 1 < argument.length := by
  unfold Form.of at form
  split at form
  · split at form
    · cases form
    · split at form
      · rename_i found
        subst form
        unfold Form.ofLetters at found
        split at found
        · rename_i letter next rest
          split at found
          · cases found
          · simp only [Form.ofLetter, Option.map_eq_some_iff] at found
            obtain ⟨c, _, h⟩ := found
            split at h
            · cases h
            · cases h; simp
        · cases found
      · split at form <;> cases form
  · cases form

/-- Read arguments. The option `open?` takes all values that follow. -/
def readArguments (progress : Progress) (open? : Option Choice) :
    List (List Char) → Except Reply Progress
  | [] => .ok progress
  | argument :: rest =>
    if argument == ['-', '-'] then .ok (progress.finish rest)
    else match open?, looksLikeOption argument with
      | some choice, false => readArguments (progress.choose choice argument) open? rest
      | _, _ =>
        match form : Form.of argument with
        | .operand => readArguments (progress.addOperand argument) none rest
        | .unknown => readArguments (progress.addUnknown argument) none rest
        | .optionWith choice value => readArguments (progress.choose choice value) none rest
        | .optionAnd choice more =>
          have := Form.length_of_option_and form
          if choice.topic == .version then .error .version
          else readArguments (progress.choose choice []) none (('-' :: more) :: rest)
        | .option choice =>
          if choice.topic == .version then .error .version
          else if choice.values.areExpected then
            match rest with
            | [] => .error (.missingValue choice)
            | value :: rest =>
              readArguments (progress.choose choice value)
                (if choice.values.areMany then some choice else none) rest
          else readArguments (progress.choose choice []) none rest
termination_by arguments => sizeOfArguments arguments
decreasing_by all_goals simp only [sizeOfArguments, List.length_cons]; omega

def asksForHelp (argument : String) : Bool :=
  argument == shortForm helpLetter || argument == longForm helpWord

/-- What a command line asks for. The first operand is the path; further ones do not count. -/
def readRequest (arguments : List String) : Except Reply Request :=
  match readArguments .start none (arguments.map String.toList) with
  | .error reply => .error reply
  | .ok progress =>
    if progress.unknown.any asksForHelp then .error .help
    else match progress.unknown with
      | argument :: _ => .error (.unknownOption argument)
      | [] =>
        .ok { progress.request with
          path := progress.operands.head?.getD progress.request.path }

end LineCensus.Command
