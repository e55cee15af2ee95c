import HookScript.Json.Reader
import HookScript.JavaType.Notation
import HookScript.Program.Catalog
import HookScript.Script.Identifier

/-!
# Loading models

A model is loaded from a document of this shape, in which only the names are
required:

    {"classes": [
        {"name": "com.example.Foo", "alias": "Foo",
         "fields": [{"name": "bar", "alias": "bar", "type": "int"}],
         "methods": [{"name": "baz", "alias": "baz", "args": ["int"],
                      "argNames": ["i0"], "ret": "void", "constructor": false}]}]}

A document is checked in the order in which it is read, and the first flaw is
reported with the path to the entry that has it.
-/

namespace HookScript

open Json (Path Step)

/-! ## Errors -/

/-- The kinds of entries of a document. -/
inductive EntryKind where
  | cls
  | method
  | field
deriving DecidableEq

def EntryKind.name : EntryKind → Text
  | .cls => "class"
  | .method => "method"
  | .field => "field"

/-- The names in a document that scripts declare as variables. -/
inductive VariableKind where
  | classAlias
  | fieldAlias
  | argumentName
deriving DecidableEq

def VariableKind.name : VariableKind → Text
  | .classAlias => "class alias"
  | .fieldAlias => "field alias"
  | .argumentName => "argument name"

/-- Why a document describes no model. -/
inductive LoadFlaw where
  /-- The text is no document. -/
  | notADocument (flaw : Json.Flaw) (position : Json.Position)
  | topLevel
  | notAnObject (kind : EntryKind)
  | notAList (key : Text)
  | missingKey (key : Text)
  | notAString (key : Text)
  | emptyString (key : Text)
  /-- A script cannot declare a variable of this name. -/
  | notAnIdentifier (kind : VariableKind) (name : Text)
  | typeNotAString
  | badType (error : NotationError)
  /-- The numbers of argument names and of argument types differ. -/
  | argumentCount (names types : Nat)
  | badArgumentName
  | constructorNotABoolean
  /-- A method before it in the class has the same identity. -/
  | duplicateMethod (identity : Text)
  /-- A class before it has the same raw name. -/
  | duplicateClass (name : Text)
deriving DecidableEq

def LoadFlaw.message : LoadFlaw → Text
  | .notADocument flaw position =>
    "invalid JSON at line " ++ Text.ofNat position.line ++ ", column " ++
      Text.ofNat position.column ++ ": " ++ flaw.message
  | .topLevel => "top level must be an object"
  | .notAnObject kind => kind.name ++ " entry must be an object"
  | .notAList key => "'" ++ key ++ "' must be a list"
  | .missingKey key => "missing '" ++ key ++ "'"
  | .notAString key => "'" ++ key ++ "' must be a string"
  | .emptyString key => "'" ++ key ++ "' must not be empty"
  | .notAnIdentifier kind name => kind.name ++ " '" ++ name ++ "' must be a valid identifier"
  | .typeNotAString => "type must be a string"
  | .badType error => error.message
  | .argumentCount names types =>
    "argNames has " ++ Text.ofNat names ++ " entries, expected " ++ Text.ofNat types
  | .badArgumentName => "argument name must be a non-empty string"
  | .constructorNotABoolean => "'constructor' must be a boolean"
  | .duplicateMethod identity => "duplicate method signature " ++ identity
  | .duplicateClass name => "duplicate class " ++ name

/-- A flaw and the way to the entry that has it. -/
structure LoadError where
  flaw : LoadFlaw
  path : Path
deriving DecidableEq

/-- The wording of an error, which starts with the path unless it is empty. -/
def LoadError.message (error : LoadError) : Text :=
  if error.path = [] then error.flaw.message
  else error.path.render ++ ": " ++ error.flaw.message

namespace Loading

/-! ## Members of entries -/

/-- The path to a member of the entry at a path. -/
def key (path : Path) (name : Text) : Path := path ++ [.key name]

/-- The text of a member, which must not be empty; `none` if there is no such
member. -/
def text? (path : Path) (members : List (Text × Json)) (name : Text) :
    Except LoadError (Option Text) :=
  match Json.lookup name members with
  | none => .ok none
  | some (.str []) => .error ⟨.emptyString name, path⟩
  | some (.str text) => .ok (some text)
  | some _ => .error ⟨.notAString name, path⟩

def rawName (path : Path) (members : List (Text × Json)) : Except LoadError Text := do
  match ← text? path members "name" with
  | some name => return name
  | none => throw ⟨.missingKey "name", path⟩

/-- The items of a member; no member stands for no items. -/
def list (path : Path) (members : List (Text × Json)) (name : Text) :
    Except LoadError (List Json) :=
  match Json.lookup name members with
  | none => .ok []
  | some (.arr items) => .ok items
  | some _ => .error ⟨.notAList name, path⟩

/-- Reads the items of a list one by one.  Each item is read at its place, with
the items read before it at hand. -/
def items {α : Type} (path : Path) (read : List α → Path → Json → Except LoadError α)
    (before : List α) : List Json → Except LoadError (List α)
  | [] => .ok before
  | item :: rest => do
    let value ← read before (path ++ [.index before.length]) item
    items path read (before ++ [value]) rest

/-- Checks a name that scripts declare as a variable. -/
def checkIdentifier (path : Path) (kind : VariableKind) (name : Text) :
    Except LoadError Unit :=
  if Script.isIdentifier name then .ok () else .error ⟨.notAnIdentifier kind name, path⟩

def type (path : Path) : Json → Except LoadError JavaType
  | .str text =>
    match JavaType.parse text with
    | .ok type => .ok type
    | .error error => .error ⟨.badType error, path⟩
  | _ => .error ⟨.typeNotAString, path⟩

/-- The type of a member, if there is such a member. -/
def type? (path : Path) (members : List (Text × Json)) (name : Text) :
    Except LoadError (Option JavaType) :=
  match Json.lookup name members with
  | none => .ok none
  | some value => some <$> type (key path name) value

/-! ## Entries -/

def field (path : Path) : Json → Except LoadError JavaField
  | .obj members => do
    let name ← rawName path members
    let aliasName := (← text? path members "alias").getD name
    checkIdentifier path .fieldAlias aliasName
    let type? ← type? path members "type"
    return ⟨name, aliasName, type?⟩
  | _ => .error ⟨.notAnObject .field, path⟩

def argumentName (path : Path) : Json → Except LoadError Text
  | .str [] => .error ⟨.badArgumentName, path⟩
  | .str name => do
    checkIdentifier path .argumentName name
    return name
  | _ => .error ⟨.badArgumentName, path⟩

/-- The names of arguments that are given none: `p0`, `p1` and so on. -/
def defaultArgumentNames (count : Nat) : List Text :=
  (List.range count).map fun place => "p" ++ Text.ofNat place

/-- The names of the arguments, one for each of their types. -/
def argumentNames (path : Path) (members : List (Text × Json)) (count : Nat) :
    Except LoadError (List Text) := do
  if (Json.lookup "argNames" members).isNone then return defaultArgumentNames count
  let names ← list path members "argNames"
  if names.length ≠ count then throw ⟨.argumentCount names.length count, path⟩
  items (key path "argNames") (fun _ => argumentName) [] names

/-- Whether a method is a constructor.  If the entry does not say, its raw name
does. -/
def isConstructor (path : Path) (members : List (Text × Json)) (name : Text) :
    Except LoadError Bool :=
  match Json.lookup "constructor" members with
  | none => .ok (name = JavaMethod.constructorName)
  | some (.bool value) => .ok value
  | some _ => .error ⟨.constructorNotABoolean, path⟩

def method (path : Path) : Json → Except LoadError JavaMethod
  | .obj members => do
    let name ← rawName path members
    let aliasName := (← text? path members "alias").getD name
    let arguments ← list path members "args"
    let argumentTypes ← items (key path "args") (fun _ => type) [] arguments
    let argumentNames ← argumentNames path members argumentTypes.length
    let returnType := (← type? path members "ret").getD .void
    let isConstructor ← isConstructor path members name
    return ⟨name, aliasName, argumentTypes, returnType, argumentNames, isConstructor⟩
  | _ => .error ⟨.notAnObject .method, path⟩

/-- A method of a class that has the methods before it. -/
def nextMethod (before : List JavaMethod) (path : Path) (entry : Json) :
    Except LoadError JavaMethod := do
  let method ← method path entry
  if before.any fun other => other.identity = method.identity then
    throw ⟨.duplicateMethod method.identity, path⟩
  return method

def cls (path : Path) : Json → Except LoadError JavaClass
  | .obj members => do
    let name ← rawName path members
    let aliasName := (← text? path members "alias").getD (name.afterLast '.')
    checkIdentifier path .classAlias aliasName
    let fieldEntries ← list path members "fields"
    let fields ← items (key path "fields") (fun _ => field) [] fieldEntries
    let methodEntries ← list path members "methods"
    let methods ← items (key path "methods") nextMethod [] methodEntries
    return ⟨name, aliasName, fields, methods⟩
  | _ => .error ⟨.notAnObject .cls, path⟩

/-- A class of a model that has the classes before it. -/
def nextClass (before : List JavaClass) (path : Path) (entry : Json) :
    Except LoadError JavaClass := do
  let cls ← cls path entry
  if before.any fun other => other.rawName = cls.rawName then
    throw ⟨.duplicateClass cls.rawName, path⟩
  return cls

end Loading

/-! ## Documents -/

/-- The model that a document describes. -/
def Model.ofJson : Json → Except LoadError Model
  | .obj members => do
    let entries ← Loading.list [] members "classes"
    let classes ← Loading.items [.key "classes"] Loading.nextClass [] entries
    return Model.ofClasses classes
  | _ => .error ⟨.topLevel, []⟩

/-- The model that the text of a document describes. -/
def Model.parse (source : Text) : Except LoadError Model :=
  match Json.parse source with
  | .ok document => Model.ofJson document
  | .error fault => .error ⟨.notADocument fault.flaw (fault.position source), []⟩

end HookScript
