import HookScript.Program.Dump
import HookScript.Proofs.JavaType.Display
import HookScript.Proofs.Program.Acceptance

/-!
# Loading dumps

A dump spells out every member of an entry, so no default comes in when it is
loaded again.  It shows types in display form, however, and a few display forms
mean another type.  These are all that can go wrong: a dump describes the
declarations that it was made from if and only if the display forms of all their
types are read back.
-/

namespace HookScript

open Json

/-! ## The types of declarations -/

def JavaField.types (field : JavaField) : List JavaType := field.type?.toList

def JavaMethod.types (method : JavaMethod) : List JavaType :=
  method.argumentTypes ++ [method.returnType]

def JavaClass.types (cls : JavaClass) : List JavaType :=
  cls.fields.flatMap JavaField.types ++ cls.methods.flatMap JavaMethod.types

def Model.types (model : Model) : List JavaType := model.classes.flatMap JavaClass.types

/-- A type that is read back from its display form. -/
def JavaType.ReadsBack (type : JavaType) : Prop := JavaType.parse type.display = .ok type

/-! ## What a dump describes -/

namespace Json

theorem givesType_display {type : JavaType} :
    GivesType (.str type.display) type ↔ type.ReadsBack := by
  constructor
  · intro gives
    cases gives with
    | text read => exact read
  · exact .text

theorem givesType_displays {types : List JavaType} :
    List.Forall₂ GivesType ((types.map JavaType.display).map .str) types ↔
      ∀ type ∈ types, type.ReadsBack := by
  rw [List.map_map, List.forall₂_map_left_iff, List.forall₂_same]
  exact forall₂_congr fun _ _ => givesType_display

variable {members : List (Text × Json)} {name : Text}

/-- A member that is there decides what the entry says. -/
theorem givesType?_iff {entry : Json} {type? : Option JavaType}
    (found : lookup name members = some entry) :
    GivesType? members name type? ↔ ∃ type, type? = some type ∧ GivesType entry type := by
  constructor
  · intro gives
    cases gives with
    | given same typed =>
      cases found.symm.trans same
      exact ⟨_, rfl, typed⟩
    | missing absent => cases found.symm.trans absent
  · intro parts
    rcases parts with ⟨type, rfl, typed⟩
    exact .given found typed

theorem givesList_iff {items items' : List Json} (found : lookup name members = some (.arr items)) :
    GivesList members name items' ↔ items' = items := by
  constructor
  · intro gives
    cases gives with
    | given same =>
      cases found.symm.trans same
      rfl
    | missing absent => cases found.symm.trans absent
  · rintro rfl
    exact .given found

theorem describesField_toJson {field : JavaField} :
    DescribesField field.toJson field ↔ ∀ type ∈ field.types, type.ReadsBack := by
  obtain ⟨rawName, aliasName, type?⟩ := field
  cases type? with
  | none =>
    constructor
    · intro _ type mentioned
      cases mentioned
    · intro _
      exact .entry rfl (.given rfl) (.missing rfl)
  | some type =>
    constructor
    · intro describes
      cases describes with
      | entry _ _ gives =>
        rcases (givesType?_iff rfl).mp gives with ⟨same, found, typed⟩
        cases found
        exact List.forall_mem_singleton.mpr (givesType_display.mp typed)
    · intro reads
      have typed := givesType_display.mpr (reads type List.mem_cons_self)
      exact .entry rfl (.given rfl) (.given rfl typed)

theorem describesMethod_toJson {method : JavaMethod} :
    DescribesMethod method.toJson method ↔ ∀ type ∈ method.types, type.ReadsBack := by
  rw [JavaMethod.types, List.forall_mem_append, ← givesType_displays, List.forall_mem_singleton,
    ← givesType_display]
  constructor
  · intro describes
    cases describes with
    | entry _ _ argumentList argumentTypes _ result returnType _ =>
      cases (givesList_iff rfl).mp argumentList
      rcases (givesType?_iff rfl).mp result with ⟨type, found, typed⟩
      subst found
      have same : type = method.returnType := returnType
      subst same
      exact ⟨argumentTypes, typed⟩
  · intro parts
    rcases parts with ⟨argumentTypes, result⟩
    exact .entry rfl (.given rfl) (.given rfl) argumentTypes (.given rfl) (.given rfl result) rfl
      (.given rfl)

/-- A list of dumps describes the list that it was made from if each of them does. -/
theorem forall₂_toJson {α : Type} {describes : Json → α → Prop} {toJson : α → Json}
    {types : α → List JavaType} (each : ∀ value, describes (toJson value) value ↔
      ∀ type ∈ types value, type.ReadsBack) {values : List α} :
    List.Forall₂ describes (values.map toJson) values ↔
      ∀ type ∈ values.flatMap types, type.ReadsBack := by
  rw [List.forall₂_map_left_iff, List.forall₂_same, List.forall_mem_flatMap]
  exact forall₂_congr fun value _ => each value

theorem describesClass_toJson {cls : JavaClass} :
    DescribesClass cls.toJson cls ↔ ∀ type ∈ cls.types, type.ReadsBack := by
  rw [JavaClass.types, List.forall_mem_append, ← forall₂_toJson fun _ => describesField_toJson,
    ← forall₂_toJson fun _ => describesMethod_toJson]
  constructor
  · intro describes
    cases describes with
    | entry _ _ fieldList eachField methodList eachMethod =>
      cases (givesList_iff rfl).mp fieldList
      cases (givesList_iff rfl).mp methodList
      exact ⟨eachField, eachMethod⟩
  · intro parts
    rcases parts with ⟨eachField, eachMethod⟩
    exact .entry rfl (.given rfl) (.given rfl) eachField (.given rfl) eachMethod

theorem describesClasses_toJson {model : Model} :
    DescribesClasses model.toJson model.classes ↔ ∀ type ∈ model.types, type.ReadsBack := by
  rw [Model.types, ← forall₂_toJson fun _ => describesClass_toJson]
  constructor
  · intro describes
    cases describes with
    | document classList eachClass =>
      cases (givesList_iff rfl).mp classList
      exact eachClass
  · exact .document (.given rfl)

end Json

/-! ## What a dump loads as -/

namespace Model

theorem WellFormed.types {model : Model} (wellFormed : model.WellFormed) :
    ∀ type ∈ model.types, type.WellFormed := by
  intro type mentioned
  rcases List.mem_flatMap.mp mentioned with ⟨cls, listed, mentioned⟩
  have wellClass := wellFormed.classes cls listed
  rcases List.mem_append.mp mentioned with mentioned | mentioned
  · rcases List.mem_flatMap.mp mentioned with ⟨field, listed, mentioned⟩
    exact (wellClass.fields field listed).type? type (Option.mem_toList.mp mentioned)
  · rcases List.mem_flatMap.mp mentioned with ⟨method, listed, mentioned⟩
    have typed := (wellClass.methods method listed).typed
    rcases List.mem_append.mp mentioned with argument | result
    · exact typed.arguments type argument
    · rw [List.mem_singleton.mp result]
      exact typed.result

theorem ofJson_toJson_iff {model : Model} (wellFormed : model.WellFormed) :
    ofJson model.toJson = .ok model ↔ ∀ type ∈ model.types, ¬type.Ambiguous := by
  rw [ofJson_eq_ok, describesClasses_toJson]
  constructor
  · intro parts type mentioned
    rcases parts with ⟨reads, _⟩
    exact (JavaType.parse_display_iff (wellFormed.types type mentioned)).mp (reads type mentioned)
  · intro clear
    refine ⟨?_, wellFormed⟩
    intro type mentioned
    exact (JavaType.parse_display_iff (wellFormed.types type mentioned)).mpr (clear type mentioned)

end Model

end HookScript
