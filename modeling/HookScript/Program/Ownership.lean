import HookScript.Program.Class

/-!
# Members and their owners

A hook or probe for a member speaks about the class that owns the member.  A
class that is on its own owns its members.  Where classes are put together step
by step, a member may be handed from one class to another and stay in the list
of the first, or it may have no owner yet; so a member carries its owner along.

Classes are told apart by a `ClassId`, not by their names.
-/

namespace HookScript

/-- What makes a class the class it is. -/
structure ClassId where
  index : Nat
deriving DecidableEq

/-- What is known of the class that owns a member. -/
structure Owner where
  id : ClassId
  rawName : Text
  aliasName : Text
  /-- All methods in the list of the class, whoever owns them now. -/
  methods : List JavaMethod
deriving DecidableEq

/-- A field or method together with its owner. -/
structure Member (α : Type) where
  item : α
  owner? : Option Owner

/-- A class as it can be selected. -/
structure ClassView where
  id : ClassId
  rawName : Text
  aliasName : Text
  fields : List (Member JavaField)
  methods : List (Member JavaMethod)

namespace ClassView

/-- The class without the owners of its members. -/
def declaration (view : ClassView) : JavaClass where
  rawName := view.rawName
  aliasName := view.aliasName
  fields := view.fields.map Member.item
  methods := view.methods.map Member.item

def toOwner (view : ClassView) : Owner where
  id := view.id
  rawName := view.rawName
  aliasName := view.aliasName
  methods := view.methods.map Member.item

/-- How many initialisers are among the methods. -/
def staticInitializers (view : ClassView) : Nat :=
  view.methods.countP fun method => method.item.isStaticInitializer

end ClassView

namespace JavaClass

/-- A class on its own as an owner.  There is no other class to tell it from. -/
def toOwner (cls : JavaClass) : Owner where
  id := ⟨0⟩
  rawName := cls.rawName
  aliasName := cls.aliasName
  methods := cls.methods

/-- A class on its own owns all its members. -/
def view (cls : JavaClass) : ClassView where
  id := ⟨0⟩
  rawName := cls.rawName
  aliasName := cls.aliasName
  fields := cls.fields.map fun field => ⟨field, some cls.toOwner⟩
  methods := cls.methods.map fun method => ⟨method, some cls.toOwner⟩

@[simp]
theorem declaration_view (cls : JavaClass) : cls.view.declaration = cls := by
  obtain ⟨rawName, aliasName, fields, methods⟩ := cls
  simp only [view, ClassView.declaration, List.map_map, Function.comp_def, List.map_id']

@[simp]
theorem toOwner_view (cls : JavaClass) : cls.view.toOwner = cls.toOwner := by
  simp only [view, ClassView.toOwner, toOwner, List.map_map, Function.comp_def, List.map_id']

end JavaClass

end HookScript
