import LineCensus.Command.Options
import LineCensus.Command.Outcome
import LineCensus.Config
import LineCensus.Report.Console
import LineCensus.Report.Document
import LineCensus.Report.Extensions
import LineCensus.Scan

/-!
The analysis of a project as it is asked for. Options count before the configuration of the project,
and patterns for directories to leave out are taken from everywhere.
-/

namespace LineCensus.Command

open LineCensus.Language (builtinRegistry)

def noFilesText : String :=
  "\n".intercalate ["No files analyzed.", "  Suggestions:",
    "  - Check that the directory contains source files", "  - Use --ext to pick specific extensions",
    "  - Use --list-extensions to see the supported types"]

/-- Where and when a command is run. -/
structure Surroundings where
  store : Store
  directory : String
  time : String
  painter : Painter
  /-- Why a directory cannot be listed, if it cannot. -/
  refusal : String → Option Failure

structure Plan where
  root : String
  extensions : List String
  ignored : List String
  json : Bool
  mode : Report.Mode
  logger : Logger

def planOf (place : Surroundings) (request : Request) : Except Failure Plan := do
  let root := Path.resolve place.directory request.path
  let config ← (Config.load place.store place.directory root request.config).mapError .config
  let quiet := request.quiet || config.quiet
  let ignored ← Ignore.load place.store place.directory root (config.ignore ++ request.ignore)
  return {
    root, ignored
    extensions := if request.extensions.isEmpty then config.extensions else request.extensions
    json := request.json
    mode := if quiet then .compact else if request.directories then .directories else .full
    logger :=
      { verbose := !request.json && request.verbose
        quiet := quiet || request.json
        painter := place.painter } }

def Plan.introduction (plan : Plan) : List Entry :=
  plan.logger.info ("Analyzing project: " ++ plan.root)
    ++ (match Extensions.restriction plan.extensions with
      | some extensions =>
        plan.logger.info ("Extensions: " ++ ", ".intercalate (Text.sort extensions))
      | none => [])
    ++ (if plan.ignored.isEmpty then []
      else plan.logger.debug ("Extra ignored directories: " ++ ", ".intercalate plan.ignored))

def Plan.conclusion (plan : Plan) (time : String) (painter : Painter) (dir : Stats.DirStats Nat) :
    List Entry :=
  if plan.json then plan.logger.plain (Report.document plan.root time dir)
  else if dir.fileCount == 0 then plan.logger.warn noFilesText
  else plan.logger.plain (Report.console painter plan.mode plan.root dir)

def Plan.carryOut (plan : Plan) (place : Surroundings) : Activity :=
  let survey :=
    { Survey.ofStore place.store builtinRegistry plan.extensions plan.ignored plan.logger with
      refusal := place.refusal }
  match survey.scan plan.root with
  | .error failure => ⟨plan.introduction, some failure⟩
  | .ok (log, dir) =>
    ⟨plan.introduction ++ log ++ plan.conclusion place.time place.painter dir, none⟩

def analyze (place : Surroundings) (request : Request) : Activity :=
  if request.listExtensions then ⟨[.out (Report.extensionList builtinRegistry)], none⟩
  else
    match planOf place request with
    | .error failure => ⟨[], some failure⟩
    | .ok plan => plan.carryOut place

def Request.values (request : Request) : List Json :=
  [.string request.path, .object (if request.json then [("json", .bool true)] else [])]

/-- Analyze a project as asked for, and report a failure if there is one. -/
def runAnalysis (place : Surroundings) (request : Request) : Outcome :=
  conclude place.painter "analyze" place.time request.values (analyze place request)

end LineCensus.Command
