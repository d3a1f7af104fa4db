import LineCensus.Json.Basic
import LineCensus.Numeric.Notation

/-!
What can go wrong, by cause, and the words for it.
-/

namespace LineCensus

open Numeric

/-! ### Files -/

/-- Why a path leads to nothing that can be used. -/
inductive FileFault where
  | missing
  | notDirectory
  | isDirectory
  | tooManyLinks
  | nameTooLong
  | alreadyThere
  | denied
  deriving DecidableEq, Repr

namespace FileFault

def code : FileFault → String
  | missing => "ENOENT"
  | notDirectory => "ENOTDIR"
  | isDirectory => "EISDIR"
  | tooManyLinks => "ELOOP"
  | nameTooLong => "ENAMETOOLONG"
  | alreadyThere => "EEXIST"
  | denied => "EACCES"

def description : FileFault → String
  | missing => "no such file or directory"
  | notDirectory => "not a directory"
  | isDirectory => "illegal operation on a directory"
  | tooManyLinks => "too many symbolic links encountered"
  | nameTooLong => "name too long"
  | alreadyThere => "file already exists"
  | denied => "permission denied"

end FileFault

structure FileError where
  fault : FileFault
  attempt : String
  path : Option String
  deriving DecidableEq, Repr

def FileError.message (error : FileError) : String :=
  error.fault.code ++ ": " ++ error.fault.description ++ ", " ++ error.attempt
    ++ match error.path with
      | some path => " '" ++ path ++ "'"
      | none => ""

/-! ### Configuration -/

inductive ConfigFault where
  | missing (path : String)
  /-- The file cannot be read or holds no JSON, for the given reason. -/
  | unreadable (path reason : String)
  | notObject (source : String)
  | notBoolean (source field : String)
  | notStrings (source field : String)
  deriving DecidableEq, Repr

namespace ConfigFault

def invalid (source reason : String) : String :=
  "Invalid config file: " ++ source ++ " (" ++ reason ++ ")"

def message : ConfigFault → String
  | missing path => "Config file not found: " ++ path
  | unreadable path reason => invalid path reason
  | notObject source => invalid source "expected a JSON object"
  | notBoolean source field => invalid source ("\"" ++ field ++ "\" must be a boolean")
  | notStrings source field => invalid source ("\"" ++ field ++ "\" must be an array of strings")

end ConfigFault

/-! ### Projects -/

inductive RootFault where
  | missing (path : String)
  | notDirectory (path : String)
  deriving DecidableEq, Repr

namespace RootFault

def message : RootFault → String
  | missing path => "Path does not exist: " ++ path
  | notDirectory path => "Path is not a directory: " ++ path

def code : RootFault → String
  | missing _ => "PATH_NOT_FOUND"
  | notDirectory _ => "NOT_A_DIRECTORY"

end RootFault

/-! ### Everything -/

inductive Failure where
  /-- Something that is not even a value. -/
  | nothing
  /-- A value that need not describe what went wrong. -/
  | value (value : Json)
  | plain (message : String)
  /-- Something with a message and a code of its own; the code may be empty. -/
  | coded (message code : String)
  | file (error : FileError)
  | fileMissing (path : String)
  | badJson
  | config (fault : ConfigFault)
  | root (fault : RootFault)

mutual

/-- A value as text: the items of arrays with commas between them, nothing for what is nothing among
them. -/
def Json.asText : Json → String
  | .null => "null"
  | .bool value => if value then "true" else "false"
  | .number value => render value
  | .string text => text
  | .array items => ",".intercalate (itemsAsText items)
  | .object _ => "[object Object]"

def itemsAsText : List Json → List String
  | [] => []
  | .null :: rest => "" :: itemsAsText rest
  | item :: rest => item.asText :: itemsAsText rest

end

namespace Failure

/-- What went wrong, in words. A value with a message is described by it, any other by itself. Why a text
is no JSON is told by whatever reads JSON, in words of its own; "bad JSON" stands in for these. -/
def message : Failure → String
  | nothing => "undefined"
  | value (.object fields) => ((fields.lookup "message").getD (.object fields)).asText
  | value v => v.asText
  | plain message => message
  | coded message _ => message
  | file error => error.message
  | fileMissing path => "File not found: " ++ path
  | badJson => "bad JSON"
  | config fault => fault.message
  | root fault => fault.message

def code? : Failure → Option String
  | coded _ code => if code.isEmpty then none else some code
  | config _ => some "CONFIG_ERROR"
  | root fault => some fault.code
  | _ => none

/-- Whether there is anything to say of the failure: values that stand for nothing are passed over. -/
def isSilent : Failure → Bool
  | nothing | value .null | value (.bool false) | value (.string "") => true
  | value (.number n) => n.isNan || n.isZero
  | _ => false

end Failure

end LineCensus
