import HookScript.Json.Equality
import HookScript.Program.Ownership

/-!
# Selections

What a script is asked for: a class, a method or a field.  A selection may also
refer to nothing, or be something else altogether; neither can be turned into a
script, and `Missing` and `Foreign` say why.
-/

namespace HookScript

/-! ## Things that cannot be selected -/

/-- Something in the place of a selection. -/
inductive Foreign where
  | value (document : Json)
  /-- A class itself instead of a reference to it. -/
  | cls (declaration : JavaClass)
  /-- A method itself instead of a reference to it. -/
  | method (declaration : JavaMethod)
  /-- A field itself instead of a reference to it. -/
  | field (declaration : JavaField)
  | type (type : JavaType)

/-- The kinds of things that cannot be selected. -/
inductive ForeignKind where
  | nothing
  | text
  | integer
  | real
  | truth
  | list
  | record
  | cls
  | method
  | field
  | primitiveType
  | objectType
  | arrayType
  | unspecifiedType
deriving DecidableEq

namespace ForeignKind

def name : ForeignKind → Text
  | .nothing => "NoneType"
  | .text => "str"
  | .integer => "int"
  | .real => "float"
  | .truth => "bool"
  | .list => "list"
  | .record => "dict"
  | .cls => "ClassDescriptor"
  | .method => "MethodDescriptor"
  | .field => "FieldDescriptor"
  | .primitiveType => "PrimitiveType"
  | .objectType => "ObjectType"
  | .arrayType => "ArrayType"
  | .unspecifiedType => "ArgType"

/-- Whether things of a kind describe a part of a program. -/
def isDescriptor : ForeignKind → Bool
  | .nothing | .text | .integer | .real | .truth | .list | .record => false
  | _ => true

def fullName (kind : ForeignKind) : Text :=
  if kind = .nothing then "null"
  else (if kind.isDescriptor then "fridagen.model." else "builtins.") ++ kind.name

/-- The kind of a JSON value. -/
def ofJson : Json → ForeignKind
  | .null => .nothing
  | .bool _ => .truth
  | .int _ => .integer
  | .real _ => .real
  | .str _ => .text
  | .arr _ => .list
  | .obj _ => .record

/-- The kind of a type. -/
def ofType (type : JavaType) : ForeignKind :=
  if type.isArray then .arrayType
  else match type.base with
    | .primitive _ => .primitiveType
    | .object _ => .objectType
    | .unspecified => .unspecifiedType

end ForeignKind

/-! ## Things that are lacking -/

/-- What some kinds of things have and others lack. -/
inductive Feature where
  | fields
  | methods
  | owner
  | rawName
  /-- Being able to take a field in. -/
  | addField
  /-- Being able to take a method in. -/
  | addMethod
deriving DecidableEq

def Feature.name : Feature → Text
  | .fields => "fields"
  | .methods => "methods"
  | .owner => "owner"
  | .rawName => "raw_name"
  | .addField => "add_field"
  | .addMethod => "add_method"

/-- What a script needs and a selection may lack. -/
inductive Missing where
  /-- A feature that things of a kind lack. -/
  | feature (holder : ForeignKind) (lacking : Feature)
  /-- The signature of an unspecified type. -/
  | signature
deriving DecidableEq

namespace Missing

/-- The methods of a class that is not there. -/
abbrev methods : Missing := .feature .nothing .methods

/-- The owner of a member that is not there. -/
abbrev owner : Missing := .feature .nothing .owner

/-- The raw name of a class that is not there. -/
abbrev rawName : Missing := .feature .nothing .rawName

def message : Missing → Text
  | .feature holder lacking =>
    "'" ++ holder.name ++ "' object has no attribute '" ++ lacking.name ++ "'"
  | .signature => []

end Missing

namespace Foreign

def kind : Foreign → ForeignKind
  | .value document => .ofJson document
  | .cls _ => .cls
  | .method _ => .method
  | .field _ => .field
  | .type javaType => .ofType javaType

def agrees : Foreign → Foreign → Bool
  | .value first, .value second => first.equals second
  | .cls first, .cls second => first = second
  | .method first, .method second => first = second
  | .field first, .field second => first = second
  | .type first, .type second => first = second
  | _, _ => false

end Foreign

/-! ## Selections -/

/-- What a script is asked for.  A reference may refer to nothing. -/
inductive Selection where
  | cls (view? : Option ClassView)
  | method (method? : Option (Member JavaMethod))
  | field (field? : Option (Member JavaField))
  | foreign (thing : Foreign)

namespace Selection

/-- Whether a selection is a reference to a class, a method or a field, or to
nothing. -/
def isSupported : Selection → Bool
  | .foreign _ => false
  | _ => true

/-- Whether two selections refer in the same way to equal declarations, or are the
same foreign thing.  Owners do not count. -/
def agrees : Selection → Selection → Bool
  | .cls first?, .cls second? =>
    first?.map ClassView.declaration = second?.map ClassView.declaration
  | .method first?, .method second? => first?.map Member.item = second?.map Member.item
  | .field first?, .field second? => first?.map Member.item = second?.map Member.item
  | .foreign first, .foreign second => first.agrees second
  | _, _ => false

end Selection

end HookScript
