import HookScript.Program.Ownership
import HookScript.Proofs.Program.Loading

/-!
# Every loaded model is well-formed

A model is what a document describes if and only if the document loads as it, and
only well-formed models are ever loaded.  Whatever works on a loaded model may
rely on this: names that are bound to variables are identifiers, types are well-formed, and
neither classes nor the methods of one class are mistaken for each other.
-/

namespace HookScript

open Outcome Json

/-! ## Storing classes -/

namespace Model

theorem entries_add {model : Model} {cls : JavaClass} (fresh : cls.rawName ∉ model.names) :
    (model.add cls).entries = model.entries ++ [(cls.rawName, cls)] := by
  obtain ⟨entries⟩ := model
  simp only [add, Catalog.insert]
  change cls.rawName ∉ entries.map Prod.fst at fresh
  induction entries with
  | nil => rfl
  | cons entry rest ih =>
    rw [List.map_cons, List.mem_cons, not_or] at fresh
    rw [Catalog.insertEntry, if_neg (Ne.symm fresh.1), ih fresh.2, List.cons_append]

/-- Classes with distinct raw names are stored in order, one after the other. -/
theorem entries_foldl_add (model : Model) {classes : List JavaClass}
    (distinct : (model.names ++ classes.map JavaClass.rawName).Nodup) :
    (classes.foldl add model).entries =
      model.entries ++ classes.map fun cls => (cls.rawName, cls) := by
  induction classes generalizing model with
  | nil => exact (List.append_nil _).symm
  | cons cls rest ih =>
    have fresh : cls.rawName ∉ model.names := by
      intro taken
      exact (List.nodup_append.mp distinct).2.2 _ taken _ List.mem_cons_self rfl
    have stored := entries_add fresh
    have names : (model.add cls).names = model.names ++ [cls.rawName] := by
      rw [Catalog.names, stored, List.map_append]
      rfl
    have later : ((model.add cls).names ++ rest.map JavaClass.rawName).Nodup := by
      rw [names, List.append_assoc]
      exact distinct
    rw [List.foldl_cons, ih (model.add cls) later, stored, List.append_assoc]
    rfl

theorem entries_ofClasses {classes : List JavaClass}
    (distinct : (classes.map JavaClass.rawName).Nodup) :
    (ofClasses classes).entries = classes.map fun cls => (cls.rawName, cls) :=
  entries_foldl_add .empty distinct

theorem classes_ofClasses {classes : List JavaClass}
    (distinct : (classes.map JavaClass.rawName).Nodup) : (ofClasses classes).classes = classes := by
  rw [Model.classes, Catalog.values, entries_ofClasses distinct, List.map_map]
  exact List.map_id' classes

theorem WellFormed.eq_ofClasses {model : Model} (wellFormed : model.WellFormed) :
    model = ofClasses model.classes :=
  congrArg Catalog.mk (wellFormed.stored.trans (entries_ofClasses wellFormed.distinct).symm)

/-! ## Loading a document -/

theorem ofJson_eq_ok {document : Json} {model : Model} :
    ofJson document = .ok model ↔ DescribesClasses document model.classes ∧ model.WellFormed := by
  constructor
  · intro loaded
    cases document with
    | obj members =>
      rcases bind_eq_ok.mp loaded with ⟨entries, classList, loaded⟩
      rcases bind_eq_ok.mp loaded with ⟨classes, read, loaded⟩
      cases loaded
      rcases Loading.classItems_eq_ok.mp read with ⟨eachClass, wellClasses, distinct⟩
      have stored := classes_ofClasses distinct
      refine ⟨.document (Loading.list_eq_ok.mp classList) (stored.symm ▸ eachClass), ?_⟩
      refine ⟨?_, stored.symm ▸ distinct, stored.symm ▸ wellClasses⟩
      rw [stored]
      exact entries_ofClasses distinct
    | _ => cases loaded
  · intro parts
    rcases parts with ⟨describes, wellFormed⟩
    have whole := wellFormed.eq_ofClasses
    have wellClasses := wellFormed.classes
    have distinct := wellFormed.distinct
    generalize model.classes = classes at describes whole wellClasses distinct
    cases describes with
    | document classList eachClass =>
      refine bind_eq_ok.mpr ⟨_, Loading.list_eq_ok.mpr classList, ?_⟩
      refine bind_eq_ok.mpr ⟨_, Loading.classItems_eq_ok.mpr
        ⟨eachClass, wellClasses, distinct⟩, ?_⟩
      rw [whole]
      rfl

end Model

/-! ## Owners -/

/-- All members of a class name it as their owner. -/
structure ClassView.OwnsMembers (view : ClassView) : Prop where
  fields : ∀ field ∈ view.fields, field.owner? = some view.toOwner
  methods : ∀ method ∈ view.methods, method.owner? = some view.toOwner

theorem JavaClass.ownsMembers_view (cls : JavaClass) : cls.view.OwnsMembers := by
  constructor
  · intro member listed
    rcases List.mem_map.mp listed with ⟨field, _, rfl⟩
    rw [toOwner_view]
  · intro member listed
    rcases List.mem_map.mp listed with ⟨method, _, rfl⟩
    rw [toOwner_view]

theorem Model.values_map_view (model : Model) :
    (model.map JavaClass.view).values = model.classes.map JavaClass.view := by
  simp only [Catalog.map, Catalog.values, Model.classes, List.map_map, Function.comp_def]

namespace Model

/-- A document loads as a model exactly if it describes the classes of the model
in their order, member by member, and the model is well-formed.  The classes that
are then selected from are these, and each owns all of its members. -/
theorem ofJson_loads_wellFormed (document : Json) (model : Model) :
    (ofJson document = .ok model ↔
        DescribesClasses document model.classes ∧ model.WellFormed) ∧
      (model.map JavaClass.view).values.map ClassView.declaration = model.classes ∧
      ∀ view ∈ (model.map JavaClass.view).values, view.OwnsMembers := by
  refine ⟨ofJson_eq_ok, ?_, ?_⟩
  · rw [values_map_view, List.map_map]
    simp only [Function.comp_def, JavaClass.declaration_view, List.map_id']
  · intro view listed
    rw [values_map_view] at listed
    rcases List.mem_map.mp listed with ⟨cls, _, rfl⟩
    exact cls.ownsMembers_view

end Model

end HookScript
