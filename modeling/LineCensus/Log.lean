import LineCensus.Paint

/-!
Messages to the user, each on one of two streams. What a run prints is a list of entries; printing
them is left to whoever runs it.
-/

namespace LineCensus

inductive Stream where
  | out
  | err
  deriving DecidableEq, Repr

structure Entry where
  stream : Stream
  text : String
  deriving DecidableEq, Repr

namespace Entry

def out (text : String) : Entry := ⟨.out, text⟩

def err (text : String) : Entry := ⟨.err, text⟩

end Entry

structure Logger where
  verbose : Bool
  /-- Progress and success are not mentioned; warnings and errors are. -/
  quiet : Bool
  painter : Painter
  deriving DecidableEq, Repr

namespace Logger

def standard (painter : Painter) : Logger := ⟨false, false, painter⟩

/-- An error, with details that are shown only on demand. -/
def error (logger : Logger) (message : String) (details : Option String) : List Entry :=
  let shown := if logger.verbose then details else none
  Entry.err (logger.painter.paint [.red] ("✗ " ++ message))
    :: (shown.map fun text => Entry.err (logger.painter.paint [.gray] text)).toList

def success (logger : Logger) (message : String) : List Entry :=
  if logger.quiet then [] else [.out (logger.painter.paint [.green] ("✓ " ++ message))]

def info (logger : Logger) (message : String) : List Entry :=
  if logger.quiet then [] else [.out (logger.painter.paint [.blue] ("ℹ " ++ message))]

def warn (logger : Logger) (message : String) : List Entry :=
  [.err (logger.painter.paint [.yellow] ("⚠ " ++ message))]

def debug (logger : Logger) (message : String) : List Entry :=
  if logger.verbose then [.out (logger.painter.paint [.gray] ("[DEBUG] " ++ message))] else []

def plain (_ : Logger) (message : String) : List Entry := [.out message]

end Logger

end LineCensus
