/-!
Text in colours for terminals. A style has a code that turns it on and one that turns it off; styles
end before a line break and begin again behind it.
-/

namespace LineCensus

structure Style where
  on : String
  off : String
  deriving DecidableEq, Repr

namespace Style

def escape : Char := '\x1b'

def code (number : String) : String := String.ofList (escape :: '[' :: number.toList ++ ['m'])

def bold : Style := ⟨code "1", code "22"⟩

def red : Style := ⟨code "31", code "39"⟩

def green : Style := ⟨code "32", code "39"⟩

def yellow : Style := ⟨code "33", code "39"⟩

def blue : Style := ⟨code "34", code "39"⟩

def gray : Style := ⟨code "90", code "39"⟩

end Style

/-- Characters with something added behind every occurrence of a part that is not empty; `skip` says
how many characters of an occurrence are still to come. -/
def addBehind (part added : List Char) (skip : Nat) : List Char → List Char
  | [] => []
  | c :: rest =>
    match skip with
    | 1 => c :: added ++ addBehind part added 0 rest
    | skip + 2 => c :: addBehind part added (skip + 1) rest
    | 0 =>
      if part.isPrefixOf (c :: rest) then
        if part.length ≤ 1 then c :: added ++ addBehind part added 0 rest
        else c :: addBehind part added (part.length - 1) rest
      else c :: addBehind part added 0 rest

/-- Characters with something around every line break; CR LF is one break. -/
def wrapBreaks (before behind : List Char) : List Char → List Char
  | [] => []
  | '\r' :: '\n' :: rest => before ++ '\r' :: '\n' :: behind ++ wrapBreaks before behind rest
  | c :: rest =>
    if c == '\n' then before ++ '\n' :: behind ++ wrapBreaks before behind rest
    else c :: wrapBreaks before behind rest

structure Painter where
  colored : Bool
  deriving DecidableEq, Repr

namespace Painter

def plain : Painter := ⟨false⟩

/-- A text in some styles, the outermost first. A style that the text itself turns off is turned on
again. An empty text gets no codes. -/
def paint (painter : Painter) (styles : List Style) (text : String) : String :=
  if !painter.colored || text.isEmpty then text
  else
    let on := styles.flatMap (·.on.toList)
    let off := styles.reverse.flatMap (·.off.toList)
    let kept := styles.reverse.foldl
      (fun chars style => addBehind style.off.toList style.on.toList 0 chars) text.toList
    String.ofList (on ++ wrapBreaks off on kept ++ off)

end Painter

end LineCensus
