import HookScript.Program.Assembly
import Mathlib.Data.List.Basic
import Mathlib.Data.List.Induction

/-!
# Owners of loaded members

Loading makes a class, and then makes its members one after the other and adds each of them
to the class.  Every member is made right before it is added, so its place is the end of
what has been made, and the class is its owner from then on.  What has been built this way is
seen as the class on its own (`view?_ofClass`).
-/

namespace HookScript.Assembly

/-- A field is made, and added to a class. -/
def withField (id : ClassId) (assembly : Assembly) (field : JavaField) : Assembly :=
  (assembly.makeField field).1.addField id (assembly.makeField field).2

/-- A method is made, and added to a class. -/
def withMethod (id : ClassId) (assembly : Assembly) (method : JavaMethod) : Assembly :=
  (assembly.makeMethod method).1.addMethod id (assembly.makeMethod method).2

/-- A class is made, and its members are added to it in order. -/
def ofClass (cls : JavaClass) : Assembly × ClassId :=
  let (made, id) := empty.makeClass cls.rawName cls.aliasName
  (cls.methods.foldl (withMethod id) (cls.fields.foldl (withField id) made), id)

/-! ## Lists that grow at their ends -/

section Lists

variable {α β : Type}

theorem modify_append_singleton (values : List α) (value : α) (change : α → α) :
    (values ++ [value]).modify values.length change = values ++ [change value] := by
  induction values with
  | nil => rfl
  | cons first rest ih => exact congrArg (first :: ·) ih

theorem filterMap_range_getElem? (values : List α) (f : α → β) :
    (List.range values.length).filterMap (fun index => values[index]?.map f) = values.map f := by
  induction values using List.reverseRecOn with
  | nil => rfl
  | append_singleton values value ih =>
    have before : ∀ index ∈ List.range values.length,
        (values ++ [value])[index]?.map f = values[index]?.map f := by
      intro index inside
      rw [List.getElem?_append_left (List.mem_range.mp inside)]
    rw [List.length_append, List.length_singleton, List.range_succ, List.filterMap_append,
      List.filterMap_congr before, ih, List.map_append]
    simp

end Lists

/-! ## Members that have been added -/

/-- Members that the first class owns. -/
def owned {α : Type} (items : List α) : List (AssembledMember α) :=
  items.map fun item => ⟨item, some ⟨0⟩⟩

/-- A class with members that it owns, and nothing else. -/
def alone (rawName aliasName : Text) (fields : List JavaField) (methods : List JavaMethod) :
    Assembly where
  classes := [⟨rawName, aliasName, (List.range fields.length).map FieldId.mk,
    (List.range methods.length).map MethodId.mk⟩]
  fields := owned fields
  methods := owned methods

section Members

variable {α : Type} (rawName aliasName : Text) (fields : List JavaField) (methods : List JavaMethod)

theorem owned_append_singleton (items : List α) (item : α) :
    (owned items ++ [AssembledMember.mk item none]).modify (owned items).length
      (fun member => { member with ownerId? := some ⟨0⟩ }) = owned (items ++ [item]) := by
  rw [modify_append_singleton, owned, owned, List.map_append]
  rfl

theorem numbered_append_singleton {ι : Type} (number : Nat → ι) (items : List α) (item : α) :
    (List.range (items ++ [item]).length).map number =
      (List.range items.length).map number ++ [number (owned items).length] := by
  rw [List.length_append, List.length_singleton, List.range_succ, List.map_append, owned,
    List.length_map]
  rfl

theorem withField_alone (field : JavaField) :
    withField ⟨0⟩ (alone rawName aliasName fields methods) field =
      alone rawName aliasName (fields ++ [field]) methods := by
  rw [alone, alone, numbered_append_singleton, ← owned_append_singleton]
  rfl

theorem withMethod_alone (method : JavaMethod) :
    withMethod ⟨0⟩ (alone rawName aliasName fields methods) method =
      alone rawName aliasName fields (methods ++ [method]) := by
  rw [alone, alone, numbered_append_singleton, ← owned_append_singleton]
  rfl

theorem foldl_withField : fields.foldl (withField ⟨0⟩) (alone rawName aliasName [] []) =
    alone rawName aliasName fields [] := by
  induction fields using List.reverseRecOn with
  | nil => rfl
  | append_singleton fields field ih =>
    rw [List.foldl_append, ih]
    exact withField_alone rawName aliasName fields [] field

theorem foldl_withMethod : methods.foldl (withMethod ⟨0⟩) (alone rawName aliasName fields []) =
    alone rawName aliasName fields methods := by
  induction methods using List.reverseRecOn with
  | nil => rfl
  | append_singleton methods method ih =>
    rw [List.foldl_append, ih]
    exact withMethod_alone rawName aliasName fields methods method

theorem ofClass_eq (cls : JavaClass) :
    ofClass cls = (alone cls.rawName cls.aliasName cls.fields cls.methods, ⟨0⟩) := by
  have made : empty.makeClass cls.rawName cls.aliasName =
    (alone cls.rawName cls.aliasName [] [], ⟨0⟩) := rfl
  rw [ofClass, made]
  dsimp only
  rw [foldl_withField, foldl_withMethod]

/-! ## What is seen of a class -/

theorem filterMap_range_owned {β : Type} (items : List α) (f : AssembledMember α → β) :
    (List.range items.length).filterMap (fun index => (owned items)[index]?.map f) =
      items.map fun item => f ⟨item, some ⟨0⟩⟩ := by
  have seen := filterMap_range_getElem? (owned items) f
  rw [owned, List.length_map, List.map_map] at seen
  exact seen

theorem owner?_alone :
    (alone rawName aliasName fields methods).owner? ⟨0⟩ =
      some (JavaClass.toOwner ⟨rawName, aliasName, fields, methods⟩) := by
  have listed : ((List.range methods.length).map MethodId.mk).filterMap
      (fun id => (owned methods)[id.index]?.map AssembledMember.item) = methods := by
    rw [List.filterMap_map]
    exact (filterMap_range_owned methods AssembledMember.item).trans (List.map_id _)
  exact congrArg (fun methods => some (Owner.mk ⟨0⟩ rawName aliasName methods)) listed

/-- A class that is built with its members is seen as a class on its own. -/
theorem view?_ofClass (cls : JavaClass) : (ofClass cls).1.view? (ofClass cls).2 = some cls.view := by
  obtain ⟨rawName, aliasName, fields, methods⟩ := cls
  rw [ofClass_eq]
  have owner := owner?_alone rawName aliasName fields methods
  have members {α : Type} (item : α) :
      (alone rawName aliasName fields methods).member ⟨item, some ⟨0⟩⟩ =
        ⟨item, some (JavaClass.toOwner ⟨rawName, aliasName, fields, methods⟩)⟩ :=
    congrArg (Member.mk item) owner
  have seenFields : ((List.range fields.length).map FieldId.mk).filterMap
      (alone rawName aliasName fields methods).field? =
        (JavaClass.view ⟨rawName, aliasName, fields, methods⟩).fields := by
    rw [List.filterMap_map]
    refine (filterMap_range_owned fields _).trans ?_
    exact List.map_congr_left fun field _ => members field
  have seenMethods : ((List.range methods.length).map MethodId.mk).filterMap
      (alone rawName aliasName fields methods).method? =
        (JavaClass.view ⟨rawName, aliasName, fields, methods⟩).methods := by
    rw [List.filterMap_map]
    refine (filterMap_range_owned methods _).trans ?_
    exact List.map_congr_left fun method _ => members method
  change some (ClassView.mk _ _ _ _ _) = some (ClassView.mk _ _ _ _ _)
  rw [seenFields, seenMethods]
  rfl

end Members

end HookScript.Assembly
