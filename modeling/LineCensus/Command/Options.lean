/-!
What can be asked for on the command line, and how.
-/

namespace LineCensus.Command

def programName : String := "linestat"

def version : String := "1.0.0"

inductive Topic where
  | version
  | extensions
  | ignore
  | quiet
  | verbose
  | directories
  | json
  | config
  | listExtensions
  deriving DecidableEq, Repr

inductive Values where
  | none
  | one (name : String)
  | many (name : String)
  deriving DecidableEq, Repr

namespace Values

def areExpected : Values → Bool
  | none => false
  | one _ | many _ => true

def areMany : Values → Bool
  | many _ => true
  | none | one _ => false

def text : Values → String
  | none => ""
  | one name => " <" ++ name ++ ">"
  | many name => " <" ++ name ++ "...>"

end Values

/-- An option with its letter, if it has one, and its word. -/
structure Choice where
  topic : Topic
  letter : Option Char
  word : String
  values : Values
  description : String
  deriving DecidableEq, Repr

def choices : List Choice := [
  ⟨.version, some 'V', "version", .none, "output the version number"⟩,
  ⟨.extensions, some 'e', "ext", .many "ext",
    "Only analyze files with these extensions (e.g. --ext ts md)"⟩,
  ⟨.ignore, some 'i', "ignore", .many "dir", "Extra directory names to skip"⟩,
  ⟨.quiet, some 'q', "quiet", .none, "Print the compact summary only"⟩,
  ⟨.verbose, some 'v', "verbose", .none, "Print debug output"⟩,
  ⟨.directories, none, "dirs-only", .none, "Show directories only in the tree"⟩,
  ⟨.json, none, "json", .none, "Output the report as JSON"⟩,
  ⟨.config, some 'c', "config", .one "file",
    "Config file (default: .linestatrc.json in the project)"⟩,
  ⟨.listExtensions, none, "list-extensions", .none, "List the supported extensions and exit"⟩]

def helpLetter : Char := 'h'

def helpWord : String := "help"

def shortForm (letter : Char) : String := String.ofList ['-', letter]

def longForm (word : String) : String := "--" ++ word

def bothForms (letter : Option Char) (word : String) : String :=
  match letter with
  | some letter => shortForm letter ++ ", " ++ longForm word
  | none => longForm word

def Choice.forms (choice : Choice) : String :=
  bothForms choice.letter choice.word ++ choice.values.text

def choiceOfLetter (letter : Char) : Option Choice :=
  choices.find? fun choice => choice.letter == some letter

def choiceOf (argument : String) : Option Choice :=
  choices.find? fun choice =>
    choice.letter.any (fun letter => shortForm letter == argument)
      || longForm choice.word == argument

structure Request where
  path : String
  extensions : List String
  ignore : List String
  quiet : Bool
  verbose : Bool
  directories : Bool
  json : Bool
  config : Option String
  listExtensions : Bool
  deriving DecidableEq, Repr

namespace Request

def standard : Request := ⟨".", [], [], false, false, false, false, none, false⟩

/-- The request with one option more. The values of some options are added up, and of others the last
one counts. -/
def choose (request : Request) (topic : Topic) (value : String) : Request :=
  match topic with
  | .version => request
  | .extensions => { request with extensions := request.extensions ++ [value] }
  | .ignore => { request with ignore := request.ignore ++ [value] }
  | .quiet => { request with quiet := true }
  | .verbose => { request with verbose := true }
  | .directories => { request with directories := true }
  | .json => { request with json := true }
  | .config => { request with config := some value }
  | .listExtensions => { request with listExtensions := true }

end Request

end LineCensus.Command
