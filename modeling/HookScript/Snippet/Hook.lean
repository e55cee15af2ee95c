import HookScript.Script.LineBuffer
import HookScript.Script.TemplateLiteral
import HookScript.Snippet.Context
import HookScript.Snippet.Handle

/-!
# Hooks

A hook replaces a method by a function that logs the call, calls the method, and
logs and passes on the result.  `Hook` holds everything that the text of a hook
says; `Hook.text` writes it down.

If a class has several methods of one raw name, a selector by the types of the
arguments tells which of them is meant.
-/

namespace HookScript

open Script

/-- What a hook says. -/
structure Hook where
  handle : Handle
  /-- The name under which the running program knows the method. -/
  key : Text
  /-- The name of the method in log lines. -/
  display : Text
  parameters : List Text
  returnsValue : Bool
  /-- The argument types of the method, if they are needed to tell it from
  others. -/
  selector? : Option (List Text)
deriving DecidableEq

namespace Hook

/-! ## Text -/

/-- The name of the method as it stands inside a string literal. -/
def keyLiteral (hook : Hook) : Text := StringLiteral.escape hook.key

/-- The class and the name of the method as they stand inside a template
literal. -/
def displayLiteral (hook : Hook) : Text :=
  hook.handle.variableName ++ "." ++ TemplateLiteral.escape (StringLiteral.escape hook.display)

def parameterList (hook : Hook) : Text := List.intercalate ", " hook.parameters

/-- The selector of the overload, if there is one. -/
def overload (hook : Hook) : Text :=
  match hook.selector? with
  | some types => ".overload(" ++ List.intercalate ", " types ++ ")"
  | none => []

/-- The expression for the method that is hooked. -/
def target (hook : Hook) : Text :=
  hook.handle.variableName ++ "[\"" ++ hook.keyLiteral ++ "\"]" ++ hook.overload

def call (hook : Hook) : Text := "this[\"" ++ hook.keyLiteral ++ "\"](" ++ hook.parameterList ++ ")"

def logLine (message : Text) : Text := "console.log(" ++ TemplateLiteral.enclose message ++ ");"

/-- An argument in a log line, by its name and value. -/
def argumentEntry (name : Text) : Text := name ++ "=" ++ TemplateLiteral.substitution name

/-- The arguments in a log line. -/
def argumentLog (hook : Hook) : Text :=
  if hook.parameters = [] then []
  else ": " ++ List.intercalate ", " (hook.parameters.map argumentEntry)

/-- What is logged before the call. -/
def startLine (hook : Hook) : Text :=
  logLine ("start [Method] " ++ hook.displayLiteral ++ " is called" ++ hook.argumentLog)

/-- What is logged after the call. -/
def endLine (hook : Hook) (result : Text) : Text :=
  logLine ("end   [Method] " ++ hook.displayLiteral ++ " result=" ++ result)

def body (hook : Hook) : List Text :=
  if hook.returnsValue then
    [hook.startLine, "let result = " ++ hook.call ++ ";",
      hook.endLine (TemplateLiteral.substitution "result"), "return result;"]
  else [hook.startLine, hook.call ++ ";", hook.endLine "void"]

def text (hook : Hook) (firstLine : Text) : Text :=
  let start := ((LineBuffer.empty.line firstLine).line
    (hook.target ++ ".implementation = function (" ++ hook.parameterList ++ ") \x7b")).indent 1
  (((hook.body.foldl LineBuffer.line start).indent (-1)).line "\x7d;").output

/-! ## Hooks of methods -/

/-- The name under which the running program knows every constructor. -/
def constructorKey : Text := "$init"

/-- Whether one of some methods differs in identity from a method.  The search
stops at the first that does; all up to it need an identity. -/
def isOverloaded (method : JavaMethod) : List JavaMethod → Except Missing Bool
  | [] => .ok false
  | other :: rest =>
    if !(other.hasIdentity && method.hasIdentity) then .error .signature
    else if other.identity = method.identity then isOverloaded method rest
    else .ok true

def ofMethod (owner : Owner) (method : JavaMethod) (overloaded : Bool) : Hook where
  handle := ⟨owner.rawName, owner.aliasName⟩
  key := if method.isConstructor then constructorKey else method.rawName
  display := if method.isConstructor then constructorKey else method.aliasName
  parameters := method.argumentNames
  returnsValue := method.returnsValue
  selector? :=
    if overloaded then some (method.argumentTypes.map JavaType.overloadArgument) else none

/-- Whether the class that owns a method has others of the same raw name. -/
def overloadedIn (member : Member JavaMethod) : Composing Bool := do
  let owner ← Composing.ownerOf member
  let siblings ← Composing.methodsNamed owner member.item.rawName
  isOverloaded member.item siblings

def compose (member : Member JavaMethod) : Composing Hook := do
  let owner ← Composing.ownerOf member
  let overloaded ← overloadedIn member
  return ofMethod owner member.item overloaded

end Hook

end HookScript
