import LineCensus.Command.Arguments
import LineCensus.Log
import LineCensus.Text.Collation
import LineCensus.Text.Distance

/-!
What is said about the command line itself: its version, how it is used, and what is wrong with it.
-/

namespace LineCensus.Command

/-! ### Help -/

def purpose : String := "Count code, comment and blank lines across a project"

/-- The terms of a help text with what is said of them. -/
abbrev Terms := List (String × String)

def operandTerms : Terms :=
  [("path", "Project directory to analyze (default: \"" ++ Request.standard.path ++ "\")")]

def optionTerms : Terms :=
  (choices.map fun choice => (choice.forms, choice.description))
    ++ [(bothForms (some helpLetter) helpWord, "display help for command")]

def helpWidth : Nat := 80

def termMargin : Nat := 2

def termWidth : Nat :=
  ((operandTerms ++ optionTerms).map fun term => term.1.length).foldl max 0

def descriptionWidth : Nat := helpWidth - termMargin - termWidth - termMargin - 1

/-- Words on lines of a width; `line` holds what the first line has already. -/
def fillLines (width : Nat) (line : String) : List String → List String
  | [] => [line]
  | word :: rest =>
    let longer := line ++ " " ++ word
    if longer.length ≤ width then fillLines width longer rest
    else line :: fillLines width word rest

def wrapText (width : Nat) (text : String) : List String :=
  match (text.toList.splitOn ' ').map String.ofList with
  | [] => []
  | word :: rest => fillLines width word rest

def spaces (count : Nat) : String := String.ofList (List.replicate count ' ')

def termText (term : String × String) : String :=
  let margin := spaces termMargin
  let lead := margin ++ Text.padEnd term.1 (termWidth + termMargin)
  lead ++ ("\n" ++ spaces (2 * termMargin + termWidth)).intercalate
    (wrapText descriptionWidth term.2)

def helpText : String :=
  "\n".intercalate <|
    ["Usage: " ++ programName ++ " [options] [path]", "", purpose, "", "Arguments:"]
      ++ operandTerms.map termText ++ ["", "Options:"] ++ optionTerms.map termText ++ [""]

/-! ### Mistakes -/

def allWords : List String := choices.map (·.word) ++ [helpWord]

/-- What may have been meant by an option that is not known; only long forms are compared. -/
def suggestion (argument : String) : String :=
  match argument.toList with
  | '-' :: '-' :: word =>
    let similar := (Text.closest (String.ofList word) allWords).mergeSort fun a b =>
      Text.collate a b != .gt
    match similar.map longForm with
    | [] => ""
    | [form] => "\n(Did you mean " ++ form ++ "?)"
    | forms => "\n(Did you mean one of " ++ ", ".intercalate forms ++ "?)"
  | _ => ""

def mistakeText (text : String) : String := "error: " ++ text ++ "\n"

structure Notice where
  entry : Entry
  exitCode : Nat
  deriving DecidableEq, Repr

def Reply.notice : Reply → Notice
  | version => ⟨.out (Command.version ++ "\n"), 0⟩
  | help => ⟨.out helpText, 0⟩
  | missingValue choice =>
    ⟨.err (mistakeText ("option '" ++ choice.forms ++ "' argument missing")), 1⟩
  | unknownOption argument =>
    ⟨.err (mistakeText ("unknown option '" ++ argument ++ "'" ++ suggestion argument)), 1⟩

end LineCensus.Command
