import LineCensus.Json.Basic
import LineCensus.Numeric.Notation

/-!
JSON values in writing, on one line or with every member on a line of its own. Numbers that are not
finite are written as `null`.
-/

namespace LineCensus.Json

open Numeric

def hexDigit (n : Nat) : Char := ("0123456789abcdef".toList).getD n '0'

def escape (c : Char) : List Char :=
  if c == '"' then ['\\', '"']
  else if c == '\\' then ['\\', '\\']
  else if c == '\n' then ['\\', 'n']
  else if c == '\r' then ['\\', 'r']
  else if c == '\t' then ['\\', 't']
  else if c == '\x08' then ['\\', 'b']
  else if c == '\x0c' then ['\\', 'f']
  else if c.toNat < 0x20 then
    ['\\', 'u', '0', '0', hexDigit (c.toNat / 16), hexDigit (c.toNat % 16)]
  else [c]

def quote (text : String) : String :=
  String.ofList ('"' :: text.toList.flatMap escape ++ ['"'])

def renderNumber (n : Binary64) : String := if n.isFinite then render n else "null"

/-- How the members of arrays and objects are set apart: what opens a member at a depth, what stands
before the closing bracket at a depth, and what stands behind the name of a field. -/
structure Layout where
  beforeMember : Nat → String
  beforeClosing : Nat → String
  afterName : String

def Layout.compact : Layout := ⟨fun _ => "", fun _ => "", ":"⟩

def newLine (depth : Nat) : String :=
  "\n" ++ String.ofList (List.replicate (2 * depth) ' ')

def Layout.indented : Layout := ⟨fun depth => newLine (depth + 1), newLine, ": "⟩

/-- Members in brackets; nothing stands between the brackets if there are none. -/
def Layout.enclose (layout : Layout) (depth : Nat) (opener closer : String)
    (members : List String) : String :=
  if members.isEmpty then opener ++ closer
  else
    opener ++ ",".intercalate (members.map (layout.beforeMember depth ++ ·))
      ++ layout.beforeClosing depth ++ closer

mutual

def renderAt (layout : Layout) (depth : Nat) : Json → String
  | null => "null"
  | bool value => if value then "true" else "false"
  | number value => renderNumber value
  | string text => quote text
  | array items => layout.enclose depth "[" "]" (renderItems layout (depth + 1) items)
  | object fields => layout.enclose depth "\x7b" "\x7d" (renderFields layout (depth + 1) fields)

def renderItems (layout : Layout) (depth : Nat) : List Json → List String
  | [] => []
  | item :: rest => renderAt layout depth item :: renderItems layout depth rest

def renderFields (layout : Layout) (depth : Nat) : List (String × Json) → List String
  | [] => []
  | (name, value) :: rest =>
    (quote name ++ layout.afterName ++ renderAt layout depth value)
      :: renderFields layout depth rest

end

def renderCompact (value : Json) : String := renderAt .compact 0 value

def renderIndented (value : Json) : String := renderAt .indented 0 value

end LineCensus.Json
