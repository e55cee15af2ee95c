import HookScript.JavaType.Basic

/-!
# Classes

A class declares fields and methods.  Every one of the three has a *raw name*,
under which the running program knows it, and an *alias*, which scripts use for
variables and messages.  Two methods of a class may share their raw name; their
*identity*, which adds the signatures of the arguments and of the result, tells
them apart.
-/

namespace HookScript

/-- A field of a class.  Its type may be unknown. -/
structure JavaField where
  rawName : Text
  aliasName : Text
  type? : Option JavaType
deriving DecidableEq

/-- A method or constructor of a class. -/
structure JavaMethod where
  rawName : Text
  aliasName : Text
  argumentTypes : List JavaType
  returnType : JavaType
  /-- The names that a hook gives to the arguments. -/
  argumentNames : List Text
  isConstructor : Bool
deriving DecidableEq

/-- A class with its members in the order of their declaration. -/
structure JavaClass where
  rawName : Text
  aliasName : Text
  fields : List JavaField
  methods : List JavaMethod
deriving DecidableEq

namespace JavaMethod

/-- The raw name of every constructor. -/
def constructorName : Text := "<init>"

/-- The raw name of the code that initialises a class. -/
def staticInitializerName : Text := "<clinit>"

/-- Whether the method is the initialiser of its class. -/
def isStaticInitializer (method : JavaMethod) : Bool := method.rawName = staticInitializerName

/-- Whether a call of the method has a result to pass on. -/
def returnsValue (method : JavaMethod) : Bool :=
  !method.isConstructor && method.returnType ≠ .void

def hasIdentity (method : JavaMethod) : Bool :=
  method.argumentTypes.all JavaType.hasSignature && method.returnType.hasSignature

/-- The identity of the method, such as `baz(ILjava/lang/String;)V`.  It means
something only if all types have signatures. -/
def identity (method : JavaMethod) : Text :=
  method.rawName ++ "(" ++ method.argumentTypes.flatMap JavaType.signature ++ ")" ++
    method.returnType.signature

end JavaMethod

end HookScript
