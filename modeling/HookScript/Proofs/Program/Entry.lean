import HookScript.Program.Loading
import HookScript.Proofs.Program.Identity
import HookScript.Proofs.Script.Identifier
import Mathlib.Data.List.Forall2

/-!
# What the entries of a document say

An entry of a document describes a class, a field or a method.  What it says is
stated here member by member: which members it must have, and what a member that
it lacks stands for.  Lists of entries describe lists of declarations in the same
order, one for one.

Not everything that can be said describes a sound program, so what makes a
declaration well-formed is stated apart from it.  Loading is what the two
amount to together.
-/

namespace HookScript

/-! ## Members -/

namespace Json

/-- A text that a member gives, or that stands in for a missing member. -/
inductive GivesText (members : List (Text × Json)) (name default : Text) : Text → Prop where
  | given {text : Text} (found : lookup name members = some (.str text)) :
      GivesText members name default text
  | missing (absent : lookup name members = none) : GivesText members name default default

/-- The items of a member; a missing member has none. -/
inductive GivesList (members : List (Text × Json)) (name : Text) : List Json → Prop where
  | given {items : List Json} (found : lookup name members = some (.arr items)) :
      GivesList members name items
  | missing (absent : lookup name members = none) : GivesList members name []

inductive GivesType : Json → JavaType → Prop where
  | text {text : Text} {type : JavaType} (read : JavaType.parse text = .ok type) :
      GivesType (.str text) type

/-- The type of a member, if there is such a member. -/
inductive GivesType? (members : List (Text × Json)) (name : Text) : Option JavaType → Prop where
  | given {entry : Json} {type : JavaType} (found : lookup name members = some entry)
      (typed : GivesType entry type) : GivesType? members name (some type)
  | missing (absent : lookup name members = none) : GivesType? members name none

/-- The names of arguments; if they are missing, the arguments are numbered. -/
inductive GivesNames (members : List (Text × Json)) (count : Nat) : List Text → Prop where
  | given {names : List Text} (found : lookup "argNames" members = some (.arr (names.map .str))) :
      GivesNames members count names
  | missing (absent : lookup "argNames" members = none) :
      GivesNames members count (Loading.defaultArgumentNames count)

/-- Whether a method is called a constructor; if the entry does not say, its raw
name does. -/
inductive GivesConstructor (members : List (Text × Json)) (rawName : Text) : Bool → Prop where
  | given {value : Bool} (found : lookup "constructor" members = some (.bool value)) :
      GivesConstructor members rawName value
  | missing (absent : lookup "constructor" members = none) :
      GivesConstructor members rawName (rawName = JavaMethod.constructorName)

/-! ## Entries -/

inductive DescribesField : Json → JavaField → Prop where
  | entry {members : List (Text × Json)} {field : JavaField}
      (rawName : lookup "name" members = some (.str field.rawName))
      (aliasName : GivesText members "alias" field.rawName field.aliasName)
      (type? : GivesType? members "type" field.type?) : DescribesField (.obj members) field

/-- An entry that describes a method.  Without a result type it returns
nothing. -/
inductive DescribesMethod : Json → JavaMethod → Prop where
  | entry {members : List (Text × Json)} {method : JavaMethod} {arguments : List Json}
      {returnType? : Option JavaType}
      (rawName : lookup "name" members = some (.str method.rawName))
      (aliasName : GivesText members "alias" method.rawName method.aliasName)
      (argumentList : GivesList members "args" arguments)
      (argumentTypes : List.Forall₂ GivesType arguments method.argumentTypes)
      (argumentNames : GivesNames members method.argumentTypes.length method.argumentNames)
      (result : GivesType? members "ret" returnType?)
      (returnType : returnType?.getD .void = method.returnType)
      (isConstructor : GivesConstructor members method.rawName method.isConstructor) :
      DescribesMethod (.obj members) method

/-- An entry that describes a class.  By default its alias is what follows the
last dot of its raw name. -/
inductive DescribesClass : Json → JavaClass → Prop where
  | entry {members : List (Text × Json)} {cls : JavaClass} {fields methods : List Json}
      (rawName : lookup "name" members = some (.str cls.rawName))
      (aliasName : GivesText members "alias" (cls.rawName.afterLast '.') cls.aliasName)
      (fieldList : GivesList members "fields" fields)
      (eachField : List.Forall₂ DescribesField fields cls.fields)
      (methodList : GivesList members "methods" methods)
      (eachMethod : List.Forall₂ DescribesMethod methods cls.methods) :
      DescribesClass (.obj members) cls

/-- A document that describes a list of classes. -/
inductive DescribesClasses : Json → List JavaClass → Prop where
  | document {members : List (Text × Json)} {classes : List JavaClass} {entries : List Json}
      (classList : GivesList members "classes" entries)
      (eachClass : List.Forall₂ DescribesClass entries classes) :
      DescribesClasses (.obj members) classes

/-- What follows from each entry of a list holds of all that the list describes. -/
theorem forall_of_described {α : Type} {describes : Json → α → Prop} {holds : α → Prop}
    {entries : List Json} {values : List α} (described : List.Forall₂ describes entries values)
    (each : ∀ entry ∈ entries, ∀ value, describes entry value → holds value) :
    ∀ value ∈ values, holds value := by
  induction described with
  | nil => exact nofun
  | cons first _ ih =>
    rcases List.forall_mem_cons.mp each with ⟨here, later⟩
    exact List.forall_mem_cons.mpr ⟨here _ first, ih later⟩

end Json

/-! ## Well-formed declarations -/

/-- A field that has a name and can be bound to a variable. -/
structure JavaField.WellFormed (field : JavaField) : Prop where
  rawName : field.rawName ≠ []
  aliasName : Script.isIdentifier field.aliasName = true
  type? : ∀ type ∈ field.type?, type.WellFormed

/-- A method that has names, and one variable for each of its arguments. -/
structure JavaMethod.WellFormed (method : JavaMethod) : Prop where
  rawName : method.rawName ≠ []
  aliasName : method.aliasName ≠ []
  typed : method.Typed
  argumentCount : method.argumentNames.length = method.argumentTypes.length
  argumentNames : ∀ name ∈ method.argumentNames, Script.isIdentifier name = true

/-- A class that has a name and can be bound to a variable, and whose methods
have identities of their own. -/
structure JavaClass.WellFormed (cls : JavaClass) : Prop where
  rawName : cls.rawName ≠ []
  aliasName : Script.isIdentifier cls.aliasName = true
  fields : ∀ field ∈ cls.fields, field.WellFormed
  methods : ∀ method ∈ cls.methods, method.WellFormed
  distinct : (cls.methods.map JavaMethod.identity).Nodup

/-- A model that keeps well-formed classes under raw names of their own. -/
structure Model.WellFormed (model : Model) : Prop where
  stored : model.entries = model.classes.map fun cls => (cls.rawName, cls)
  distinct : (model.classes.map JavaClass.rawName).Nodup
  classes : ∀ cls ∈ model.classes, cls.WellFormed

end HookScript
