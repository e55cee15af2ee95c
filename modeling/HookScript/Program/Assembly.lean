import HookScript.Program.Dump

/-!
# Assembling classes by hand

An assembly holds classes and members that are made one by one.  A member is
added to a class after it was made, and may be added to another class later: the
last class it was added to owns it, and the earlier ones keep it in their lists.
Nothing is ever removed, so an identifier goes on referring to what it was made
for.  Only classes take members in.
-/

namespace HookScript

/-- Refers to a field of an assembly. -/
structure FieldId where
  index : Nat
deriving DecidableEq

/-- Refers to a method of an assembly. -/
structure MethodId where
  index : Nat
deriving DecidableEq

/-- Refers to something in an assembly. -/
inductive PartId where
  | cls (id : ClassId)
  | field (id : FieldId)
  | method (id : MethodId)
deriving DecidableEq

namespace PartId

def kind : PartId → ForeignKind
  | .cls _ => .cls
  | .field _ => .field
  | .method _ => .method

/-- The class that is referred to, for the sake of a feature that only classes
have. -/
def asClass (feature : Feature) : PartId → Except Missing ClassId
  | .cls id => .ok id
  | part => .error (.feature part.kind feature)

end PartId

/-- A class with references to its members. -/
structure AssembledClass where
  rawName : Text
  aliasName : Text
  fields : List FieldId
  methods : List MethodId

/-- A member with a reference to its owner. -/
structure AssembledMember (α : Type) where
  item : α
  ownerId? : Option ClassId

/-- Classes and members that have been made. -/
structure Assembly where
  classes : List AssembledClass
  fields : List (AssembledMember JavaField)
  methods : List (AssembledMember JavaMethod)

namespace Assembly

def empty : Assembly := ⟨[], [], []⟩

/-! ## Making and adding -/

def makeClass (assembly : Assembly) (rawName aliasName : Text) : Assembly × ClassId :=
  ({ assembly with classes := assembly.classes ++ [⟨rawName, aliasName, [], []⟩] },
    ⟨assembly.classes.length⟩)

/-- Makes a field without an owner. -/
def makeField (assembly : Assembly) (field : JavaField) : Assembly × FieldId :=
  ({ assembly with fields := assembly.fields ++ [⟨field, none⟩] }, ⟨assembly.fields.length⟩)

/-- Makes a method without an owner. -/
def makeMethod (assembly : Assembly) (method : JavaMethod) : Assembly × MethodId :=
  ({ assembly with methods := assembly.methods ++ [⟨method, none⟩] }, ⟨assembly.methods.length⟩)

def addField (assembly : Assembly) (cls : ClassId) (field : FieldId) : Assembly where
  classes := assembly.classes.modify cls.index fun c => { c with fields := c.fields ++ [field] }
  fields := assembly.fields.modify field.index fun f => { f with ownerId? := some cls }
  methods := assembly.methods

def addMethod (assembly : Assembly) (cls : ClassId) (method : MethodId) : Assembly where
  classes := assembly.classes.modify cls.index fun c => { c with methods := c.methods ++ [method] }
  fields := assembly.fields
  methods := assembly.methods.modify method.index fun m => { m with ownerId? := some cls }

/-- Adds a member to a class.  A class is not added to anything. -/
def attach (assembly : Assembly) (target member : PartId) : Except Missing Assembly :=
  match member with
  | .cls _ => .ok assembly
  | .field id => do return assembly.addField (← target.asClass .addField) id
  | .method id => do return assembly.addMethod (← target.asClass .addMethod) id

/-! ## Looking at what is there -/

/-- The methods in the list of a class. -/
def methodsOf (assembly : Assembly) (cls : AssembledClass) : List JavaMethod :=
  cls.methods.filterMap fun id => assembly.methods[id.index]?.map AssembledMember.item

/-- A class as the owner of its members. -/
def owner? (assembly : Assembly) (id : ClassId) : Option Owner :=
  assembly.classes[id.index]?.map fun cls =>
    ⟨id, cls.rawName, cls.aliasName, assembly.methodsOf cls⟩

/-- A member with its owner as it is now. -/
def member {α : Type} (assembly : Assembly) (member : AssembledMember α) : Member α :=
  ⟨member.item, member.ownerId?.bind assembly.owner?⟩

def field? (assembly : Assembly) (id : FieldId) : Option (Member JavaField) :=
  assembly.fields[id.index]?.map assembly.member

def method? (assembly : Assembly) (id : MethodId) : Option (Member JavaMethod) :=
  assembly.methods[id.index]?.map assembly.member

def view? (assembly : Assembly) (id : ClassId) : Option ClassView :=
  assembly.classes[id.index]?.map fun cls =>
    ⟨id, cls.rawName, cls.aliasName, cls.fields.filterMap assembly.field?,
      cls.methods.filterMap assembly.method?⟩

/-- The owner of a member.  Classes do not have one. -/
def ownerOf? (assembly : Assembly) : PartId → Except Missing (Option Owner)
  | .field id => .ok ((assembly.field? id).bind Member.owner?)
  | .method id => .ok ((assembly.method? id).bind Member.owner?)
  | part => .error (.feature part.kind .owner)

/-- The classes of a catalog of references. -/
def views (assembly : Assembly) (classes : Catalog ClassId) : Catalog ClassView :=
  ⟨classes.entries.filterMap fun (name, id) => (assembly.view? id).map fun view => (name, view)⟩

end Assembly

end HookScript
