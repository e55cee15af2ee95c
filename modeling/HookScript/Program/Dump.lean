import HookScript.Json.Basic
import HookScript.Program.Catalog
import HookScript.Program.Selection

/-!
# Dumps

Models and selections as documents.  Types are given in display form, and a
field of unknown type has no `type`.
-/

namespace HookScript

def Json.texts (texts : List Text) : Json := .arr (texts.map .str)

def JavaField.toJson (field : JavaField) : Json :=
  .obj (("name", .str field.rawName) :: ("alias", .str field.aliasName) ::
    match field.type? with
    | some type => [("type", .str type.display)]
    | none => [])

def JavaMethod.toJson (method : JavaMethod) : Json :=
  .obj
    [("name", .str method.rawName), ("alias", .str method.aliasName), ("id", .str method.identity),
      ("args", .texts (method.argumentTypes.map JavaType.display)),
      ("argNames", .texts method.argumentNames), ("ret", .str method.returnType.display),
      ("constructor", .bool method.isConstructor)]

def JavaClass.toJson (cls : JavaClass) : Json :=
  .obj
    [("name", .str cls.rawName), ("alias", .str cls.aliasName),
      ("fields", .arr (cls.fields.map JavaField.toJson)),
      ("methods", .arr (cls.methods.map JavaMethod.toJson))]

def Json.ofClasses (classes : List JavaClass) : Json :=
  .obj [("classes", .arr (classes.map JavaClass.toJson))]

def Model.toJson (model : Model) : Json := .ofClasses model.classes

/-! ## Declarations that may lack signatures -/

/-- A method as a document, if it has an identity to show. -/
def JavaMethod.dump (method : JavaMethod) : Except Missing Json :=
  if method.hasIdentity then .ok method.toJson else .error .signature

/-- The identities of methods, if all of them have one. -/
def JavaMethod.identities (methods : List JavaMethod) : Except Missing (List Text) :=
  if methods.all hasIdentity then .ok (methods.map identity) else .error .signature

/-- Classes as documents, if all their methods have identities. -/
def JavaClass.dumpAll (classes : List JavaClass) : Except Missing (List Json) :=
  if classes.all fun cls => cls.methods.all JavaMethod.hasIdentity then
    .ok (classes.map JavaClass.toJson)
  else .error .signature

/-! ## Selections -/

/-- Why a selection cannot be described. -/
inductive Undescribed where
  | missing (what : Missing)
  | notASelection (kind : ForeignKind)
deriving DecidableEq

def Undescribed.message : Undescribed → Text
  | .missing what => what.message
  | .notASelection kind => "not a selection: " ++ kind.name

/-- A selection as a document: its kind, its class, and its member. -/
def Selection.describe : Selection → Except Undescribed Json
  | .cls none => .error (.missing .rawName)
  | .cls (some view) => .ok (.obj [("kind", .str "class"), ("class", .str view.rawName)])
  | .method none => .error (.missing .owner)
  | .method (some ⟨_, none⟩) => .error (.missing .rawName)
  | .method (some ⟨item, some owner⟩) =>
    if item.hasIdentity then
      .ok (.obj [("kind", .str "method"), ("class", .str owner.rawName),
        ("method", .str item.identity)])
    else .error (.missing .signature)
  | .field none => .error (.missing .owner)
  | .field (some ⟨_, none⟩) => .error (.missing .rawName)
  | .field (some ⟨item, some owner⟩) =>
    .ok (.obj [("kind", .str "field"), ("class", .str owner.rawName),
      ("field", .str item.rawName)])
  | .foreign thing => .error (.notASelection thing.kind)

end HookScript
