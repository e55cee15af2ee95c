import HookScript.Script.LineBuffer
import HookScript.Script.TemplateLiteral
import HookScript.Snippet.Context
import HookScript.Snippet.Handle

/-!
# Probes

A probe reads the value of a field and logs it.  `Probe` holds everything that
the text of a probe says; `Probe.text` writes it down.

Where a class has a method of the same raw name as a field, the running program
knows the field with an underscore in front of its name.
-/

namespace HookScript

open Script

/-- What a probe says. -/
structure Probe where
  handle : Handle
  /-- The name under which the running program knows the field. -/
  key : Text
  /-- The variable that holds the value. -/
  variableName : Text
deriving DecidableEq

namespace Probe

/-! ## Text -/

/-- The statement that reads the field. -/
def readLine (probe : Probe) : Text :=
  "let " ++ probe.variableName ++ " = " ++ probe.handle.variableName ++ "." ++
    StringLiteral.escape probe.key ++ ".value;"

def logLine (probe : Probe) : Text :=
  "console.log(" ++
    TemplateLiteral.enclose (" [Field] " ++ probe.handle.variableName ++ "." ++
      TemplateLiteral.escape (StringLiteral.escape probe.key) ++ ".value-> " ++
      TemplateLiteral.substitution probe.variableName) ++
    ");"

def text (probe : Probe) (firstLine : Text) : Text :=
  ((((LineBuffer.empty.line firstLine).line probe.readLine).line probe.logLine).line []).output

/-! ## Probes of fields -/

/-- The key of a field. -/
def keyOf (field : JavaField) (shared : Bool) : Text :=
  if shared then "_" ++ field.rawName else field.rawName

/-- The key of a field, according to the methods of the class that owns it. -/
def keyIn (member : Member JavaField) : Composing Text := do
  let owner ← Composing.ownerOf member
  let namesakes ← Composing.methodsNamed owner member.item.rawName
  return keyOf member.item (!namesakes.isEmpty)

def ofField (owner : Owner) (field : JavaField) (key : Text) : Probe where
  handle := ⟨owner.rawName, owner.aliasName⟩
  key := key
  variableName := field.aliasName

def compose (member : Member JavaField) : Composing Probe := do
  let owner ← Composing.ownerOf member
  let key ← keyIn member
  return ofField owner member.item key

end Probe

end HookScript
