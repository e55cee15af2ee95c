import HookScript.Script.StringLiteral

/-!
# Class handles

A script gets hold of a class by its raw name and keeps it in a variable named
by the alias of the class.
-/

namespace HookScript

/-- A class in a script. -/
structure Handle where
  rawName : Text
  /-- The variable that holds the class. -/
  variableName : Text
deriving DecidableEq

def Handle.declaration (handle : Handle) : Text :=
  "let " ++ handle.variableName ++ " = Java.use(\"" ++
    Script.StringLiteral.escape handle.rawName ++ "\");"

end HookScript
