import HookScript.Text.Basic

/-!
# Java types

A type is a base type and a number of array dimensions; an array of arrays is
an array with one dimension more.  The base is a primitive type or a class.  A
type may also be left unspecified: it can be displayed, but it has no
signature, and neither has an array of it.

Every type is written in two ways: by its *signature*, the form that the virtual
machine uses, and by its *display form*, the form of Java source code.
-/

namespace HookScript

/-! ## Primitive types -/

/-- A primitive type, with its name in source code and its descriptor in
signatures. -/
structure Primitive where
  name : Text
  descriptor : Text
deriving DecidableEq

namespace Primitive

def boolean : Primitive := ⟨"boolean", "Z"⟩
def byte : Primitive := ⟨"byte", "B"⟩
def char : Primitive := ⟨"char", "C"⟩
def short : Primitive := ⟨"short", "S"⟩
def int : Primitive := ⟨"int", "I"⟩
def long : Primitive := ⟨"long", "J"⟩
def float : Primitive := ⟨"float", "F"⟩
def double : Primitive := ⟨"double", "D"⟩
def void : Primitive := ⟨"void", "V"⟩

/-- The primitive types of Java, and the result type of a method without
result. -/
def all : List Primitive := [boolean, byte, char, short, int, long, float, double, void]

def ofName? (name : Text) : Option Primitive := all.find? fun p => p.name = name

def ofDescriptor? (letter : CodePoint) : Option Primitive :=
  all.find? fun p => p.descriptor = [letter]

/-- Names tell the primitive types apart. -/
theorem name_inj : ∀ p ∈ all, ∀ q ∈ all, p.name = q.name → p = q := by decide

end Primitive

/-! ## Types -/

/-- What a type is when the dimensions of an array are taken away. -/
inductive BaseType where
  | primitive (type : Primitive)
  /-- A class, by its binary name with dots between packages. -/
  | object (name : Text)
  /-- A type of which nothing is known. -/
  | unspecified
deriving DecidableEq

/-- The type of a field, of an argument, or of a result. -/
structure JavaType where
  base : BaseType
  /-- The number of array dimensions. -/
  dims : Nat
deriving DecidableEq

namespace JavaType

/-- A primitive type that is no array. -/
def primitive (type : Primitive) : JavaType := ⟨.primitive type, 0⟩

/-- A class that is no array. -/
def object (name : Text) : JavaType := ⟨.object name, 0⟩

/-- The type of which nothing is known. -/
def unspecified : JavaType := ⟨.unspecified, 0⟩

/-- The result type of a method without result. -/
def void : JavaType := primitive .void

/-- The type of arrays with elements of a type. -/
def array (element : JavaType) : JavaType := ⟨element.base, element.dims + 1⟩

def isArray (type : JavaType) : Bool := 0 < type.dims

end JavaType

/-! ## Written forms -/

def BaseType.display : BaseType → Text
  | .primitive type => type.name
  | .object name => name
  | .unspecified => "ArgType()"

/-- The signature of a base type.  An unspecified type has none, and the empty
text stands in for it; `JavaType.hasSignature` tells. -/
def BaseType.signature : BaseType → Text
  | .primitive type => type.descriptor
  | .object name => "L" ++ name.replaceEach '.' '/' ++ ";"
  | .unspecified => []

namespace JavaType

def hasSignature (type : JavaType) : Bool := type.base ≠ .unspecified

/-- The signature: an opening bracket for each dimension, then the base. -/
def signature (type : JavaType) : Text :=
  List.replicate type.dims (.ofChar '[') ++ type.base.signature

/-- The display form: the base, then a pair of brackets for each dimension. -/
def display (type : JavaType) : Text :=
  type.base.display ++ (List.replicate type.dims (Text.ofString "[]")).flatten

/-- A type as an argument of an overload selector, in quotes.  Array types are
selected by their signature with dots between packages, all other types by
their display form. -/
def overloadArgument (type : JavaType) : Text :=
  "'" ++ (if type.isArray then type.signature.replaceEach '/' '.' else type.display) ++ "'"

/-- Whether a type can be an argument of an overload selector.  An array needs a
signature for that. -/
def hasOverloadArgument (type : JavaType) : Bool := type.hasSignature || !type.isArray

theorem signature_array (type : JavaType) :
    type.array.signature = .ofChar '[' :: type.signature := rfl

theorem display_array (type : JavaType) : type.array.display = type.display ++ "[]" := by
  simp only [display, array, List.replicate_succ', List.flatten_append, List.flatten_cons,
    List.flatten_nil, List.append_nil, List.append_assoc]

end JavaType

end HookScript
