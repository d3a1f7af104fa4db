import LineCensus.Failure
import LineCensus.Json.Printer
import LineCensus.Log

/-!
How commands end. A failure is reported in words, or as a JSON document to those who asked for JSON,
and never goes any further.
-/

namespace LineCensus.Command

/-- What a command has said, and what made it stop if it was not done. -/
structure Activity where
  log : List Entry
  failure : Option Failure

structure Outcome where
  log : List Entry
  exitCode : Option Nat
  deriving DecidableEq, Repr

def failureCode : Nat := 1

/-- A failure in words: what failed, and why if there is something to say. -/
def failureEntries (painter : Painter) (message : String) (failure : Option Failure) :
    List Entry :=
  let logger := Logger.standard painter
  logger.error message none
    ++ match failure with
      | none => []
      | some failure => if failure.isSilent then [] else logger.error failure.message none

def failureJson (command time : String) (failure : Failure) : Json :=
  .object <|
    [("success", .bool false), ("error", .string failure.message), ("command", .string command),
      ("timestamp", .string time)]
    ++ match failure.code? with
      | some code => [("code", .string code)]
      | none => []

/-- Whether failures of a command with some arguments are reported as documents: the last object
that says whether JSON is wanted decides. -/
def wantsJson (arguments : List Json) : Bool :=
  (arguments.reverse.findSome? fun argument =>
    match argument with
    | .object fields =>
      match Json.lookup "json" fields with
      | some (.bool wanted) => some wanted
      | _ => none
    | _ => none).getD false

def conclude (painter : Painter) (command time : String) (arguments : List Json)
    (activity : Activity) : Outcome :=
  match activity.failure with
  | none => ⟨activity.log, none⟩
  | some failure =>
    let report :=
      if wantsJson arguments then [Entry.out (failureJson command time failure).renderIndented]
      else failureEntries painter ("Command \"" ++ command ++ "\" failed") (some failure)
    ⟨activity.log ++ report, some failureCode⟩

end LineCensus.Command
