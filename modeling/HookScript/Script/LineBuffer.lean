import HookScript.Text.Basic

/-!
# Lines of a script

A script is put together line by line, at a level of indentation that goes up
and down.  An empty line stays empty at every level, and below level zero
nothing is indented.
-/

namespace HookScript.Script

/-- The lines written so far, and the level of the next one. -/
structure LineBuffer where
  /-- What stands in front of a line for each level. -/
  unit : Text
  level : Int
  lines : List Text

namespace LineBuffer

/-- No lines yet, with a given unit of indentation. -/
def indentedBy (unit : Text) : LineBuffer := ⟨unit, 0, []⟩

/-- No lines yet; every level indents by four spaces. -/
def empty : LineBuffer := indentedBy "    "

/-- The same lines with the level changed by an amount. -/
def indent (buffer : LineBuffer) (amount : Int) : LineBuffer :=
  { buffer with level := buffer.level + amount }

/-- A text at the current level of indentation. -/
def indented (buffer : LineBuffer) (text : Text) : Text :=
  if text = [] then [] else (List.replicate buffer.level.toNat buffer.unit).flatten ++ text

def line (buffer : LineBuffer) (text : Text) : LineBuffer :=
  { buffer with lines := buffer.lines ++ [buffer.indented text] }

/-- The lines as one text, without a newline at the end. -/
def output (buffer : LineBuffer) : Text := List.intercalate [.ofChar '\n'] buffer.lines

@[simp]
theorem lines_line (buffer : LineBuffer) (text : Text) :
    (buffer.line text).lines = buffer.lines ++ [buffer.indented text] := rfl

end LineBuffer

end HookScript.Script
