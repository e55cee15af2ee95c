import HookScript.Json.Basic
import HookScript.Text.Hex

/-!
# Written documents

Documents are written in ASCII, one item or member a line, each level indented
by two more spaces.  An empty array or object stays on its line.
-/

namespace HookScript.Json

/-! ## Strings -/

/-- The short escape of a code point, if it has one. -/
def shortEscape? (c : CodePoint) : Option Char :=
  if c = '\x22' then some '\x22'
  else if c = '\\' then some '\\'
  else if c = '\n' then some 'n'
  else if c = '\r' then some 'r'
  else if c = '\t' then some 't'
  else if c = '\x0c' then some 'f'
  else if c = '\x08' then some 'b'
  else none

/-- A code point inside a written string: printable ASCII stands for itself, and
everything else is escaped, code unit by code unit if it has no short escape. -/
def quoteCodePoint (c : CodePoint) : Text :=
  match shortEscape? c with
  | some letter => [.ofChar '\\', .ofChar letter]
  | none =>
    if 0x20 ≤ c.val ∧ c.val < 0x7F then [c]
    else c.units16.flatMap fun u => "\\u" ++ Hex.unit .lower u

def quote (text : Text) : Text := "\"" ++ text.flatMap quoteCodePoint ++ "\""

/-! ## Layout -/

/-- The start of a line at a depth. -/
def newline (depth : Nat) : Text := .ofChar '\n' :: List.replicate (2 * depth) (.ofChar ' ')

mutual

/-- A value that starts on a line at a depth. -/
def renderAt (depth : Nat) : Json → Text
  | .null => "null"
  | .bool true => "true"
  | .bool false => "false"
  | .int value => Text.ofInt value
  | .real value => value.render
  | .str text => quote text
  | .arr [] => "[]"
  | .arr (item :: rest) =>
    "[" ++ newline (depth + 1) ++ renderAt (depth + 1) item ++ renderItems (depth + 1) rest ++
      newline depth ++ "]"
  | .obj [] => "\x7b\x7d"
  | .obj ((name, value) :: rest) =>
    "\x7b" ++ newline (depth + 1) ++ quote name ++ ": " ++ renderAt (depth + 1) value ++
      renderMembers (depth + 1) rest ++ newline depth ++ "\x7d"

/-- The items after the first one, each on a line of its own. -/
def renderItems (depth : Nat) : List Json → Text
  | [] => []
  | item :: rest => "," ++ newline depth ++ renderAt depth item ++ renderItems depth rest

/-- The members after the first one, each on a line of its own. -/
def renderMembers (depth : Nat) : List (Text × Json) → Text
  | [] => []
  | (name, value) :: rest =>
    "," ++ newline depth ++ quote name ++ ": " ++ renderAt depth value ++ renderMembers depth rest

end

def render (document : Json) : Text := renderAt 0 document

end HookScript.Json
