import HookScript.Program.Catalog
import HookScript.Program.Selection

/-!
# Resolving selectors

A class is named by its raw name or alias.  A method is named by its identity,
by its raw name or by its alias, and a field by its raw name or by its alias, in
this order: a later reading of a selector counts only if the earlier ones match
nothing.  A selector that matches several members by the first reading that
matches any is ambiguous.
-/

namespace HookScript

/-- Why selectors do not select anything. -/
inductive ResolveError where
  /-- Both a method and a field were asked for. -/
  | methodAndField
  | noClass (name : Text)
  | noMethod (selector className : Text)
  | ambiguousMethod (selector className : Text) (identities : List Text)
  | noField (selector className : Text)
  | ambiguousField (selector className : Text)
  /-- A method could not be compared with the selector. -/
  | missing (what : Missing)
deriving DecidableEq

def ResolveError.message : ResolveError → Text
  | .methodAndField => "select either a method or a field, not both"
  | .noClass name => "no class '" ++ name ++ "'"
  | .noMethod selector className => "no method '" ++ selector ++ "' in " ++ className
  | .ambiguousMethod selector className identities =>
    "method '" ++ selector ++ "' is ambiguous in " ++ className ++ ": " ++
      List.intercalate ", " identities
  | .noField selector className => "no field '" ++ selector ++ "' in " ++ className
  | .ambiguousField selector className =>
    "field '" ++ selector ++ "' is ambiguous in " ++ className
  | .missing what => what.message

namespace ClassView

/-- The first method with an identity.  All methods up to it need one. -/
def methodWithIdentity? (identity : Text) :
    List (Member JavaMethod) → Except Missing (Option (Member JavaMethod))
  | [] => .ok none
  | method :: rest =>
    if !method.item.hasIdentity then .error .signature
    else if method.item.identity = identity then .ok (some method)
    else methodWithIdentity? identity rest

/-- The members with a raw name, or else those with it as an alias. -/
def membersNamed {α : Type} (rawName aliasName : α → Text) (name : Text)
    (members : List (Member α)) : List (Member α) :=
  match members.filter fun member => rawName member.item = name with
  | [] => members.filter fun member => aliasName member.item = name
  | found => found

def findMethod (view : ClassView) (selector : Text) : Except ResolveError (Member JavaMethod) :=
  match methodWithIdentity? selector view.methods with
  | .error what => .error (.missing what)
  | .ok (some method) => .ok method
  | .ok none =>
    match membersNamed JavaMethod.rawName JavaMethod.aliasName selector view.methods with
    | [] => .error (.noMethod selector view.rawName)
    | [method] => .ok method
    | found =>
      .error (.ambiguousMethod selector view.rawName (found.map fun method => method.item.identity))

def findField (view : ClassView) (selector : Text) : Except ResolveError (Member JavaField) :=
  match membersNamed JavaField.rawName JavaField.aliasName selector view.fields with
  | [] => .error (.noField selector view.rawName)
  | [field] => .ok field
  | _ => .error (.ambiguousField selector view.rawName)

end ClassView

/-- What selects a class, and perhaps one of its members. -/
structure Selectors where
  className : Text
  method? : Option Text
  field? : Option Text
deriving DecidableEq

/-- The element of a program that selectors select. -/
def Catalog.resolve (classes : Catalog ClassView) (selectors : Selectors) :
    Except ResolveError Selection :=
  if selectors.method?.isSome && selectors.field?.isSome then .error .methodAndField
  else match classes.find? ClassView.aliasName selectors.className with
    | none => .error (.noClass selectors.className)
    | some view =>
      match selectors.method?, selectors.field? with
      | some selector, _ => do return .method (some (← view.findMethod selector))
      | none, some selector => do return .field (some (← view.findField selector))
      | none, none => .ok (.cls (some view))

/-- The element of a model that selectors select. -/
def Model.resolve (model : Model) (selectors : Selectors) : Except ResolveError Selection :=
  Catalog.resolve (model.map JavaClass.view) selectors

end HookScript
