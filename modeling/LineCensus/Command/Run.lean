import LineCensus.Command.Analyze
import LineCensus.Command.Usage

/-!
Whole runs of the program, from a command line to what is printed.
-/

namespace LineCensus.Command

inductive Result where
  | notice (notice : Notice)
  | outcome (outcome : Outcome)
  deriving DecidableEq, Repr

def run (place : Surroundings) (arguments : List String) : Result :=
  match readRequest arguments with
  | .ok request => .outcome (runAnalysis place request)
  | .error reply => .notice reply.notice

/-- What a run prints on one of the streams. Messages end in a line break. -/
def Result.printed (result : Result) (stream : Stream) : String :=
  match result with
  | .notice given => if given.entry.stream == stream then given.entry.text else ""
  | .outcome given =>
    String.join ((given.log.filter (·.stream == stream)).map fun entry => entry.text ++ "\n")

def Result.exitCode : Result → Nat
  | .notice given => given.exitCode
  | .outcome given => given.exitCode.getD 0

end LineCensus.Command
