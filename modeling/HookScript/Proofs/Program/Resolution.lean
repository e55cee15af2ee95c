import HookScript.Program.Dump
import HookScript.Program.Resolution
import HookScript.Proofs.Snippet.Composition
import Mathlib.Data.List.Nodup

/-!
# Selecting again what was selected

A selector may be taken in several ways, and raw names, aliases and identities are
free to look alike.  But no reading comes before that of a class by its raw name or
of a method by its identity, and neither is given twice in a loaded model.  So these
always select what they name.

The description of a selection names its class by the raw name, a method by the
identity and a field by the raw name.  Raw names of fields may be given twice, and
then the description of a field that was selected by its alias is ambiguous.
-/

namespace HookScript

/-! ## Selectors of descriptions -/

def Json.textAt? (name : Text) (members : List (Text × Json)) : Option Text :=
  match lookup name members with
  | some (.str text) => some text
  | _ => none

/-- The selectors that a description of a selection gives. -/
def Selectors.ofDescription? : Json → Option Selectors
  | .obj members => (Json.textAt? "class" members).map
      (⟨·, Json.textAt? "method" members, Json.textAt? "field" members⟩)
  | _ => none

/-! ## Classes -/

namespace Catalog

variable {α : Type} {catalog : Catalog α} {name : Text} {value : α}

theorem get?_of_mem (distinct : catalog.names.Nodup) (stored : (name, value) ∈ catalog.entries) :
    catalog.get? name = some value := by
  rcases List.append_of_mem stored with ⟨before, after, split⟩
  refine List.lookup_eq_some_iff.mpr ⟨before, after, split, fun entry earlier => ?_⟩
  rw [names, split, List.map_append, List.nodup_append] at distinct
  have here : name ∈ ((name, value) :: after).map Prod.fst := List.mem_cons_self
  exact bne_iff_ne.mpr (distinct.2.2 _ (List.mem_map_of_mem earlier) _ here).symm

theorem mem_values_of_get? (found : catalog.get? name = some value) : value ∈ catalog.values := by
  rcases List.lookup_eq_some_iff.mp found with ⟨before, after, split, _⟩
  rw [values, split, List.map_append]
  exact List.mem_append_right _ List.mem_cons_self

/-- A name is looked up before any alias is. -/
theorem find?_of_get? (aliasOf : α → Text) (found : catalog.get? name = some value) :
    catalog.find? aliasOf name = some value := by
  rw [find?, found]

theorem mem_values_of_find? {aliasOf : α → Text} (found : catalog.find? aliasOf name = some value) :
    value ∈ catalog.values := by
  unfold find? at found
  split at found
  next same =>
    cases found
    exact mem_values_of_get? same
  next =>
    split at found
    next only =>
      cases found
      have listed := List.mem_cons_self (a := value) (l := [])
      rw [← only] at listed
      exact (List.mem_filter.mp listed).1
    next => cases found

end Catalog

namespace Model

variable {model : Model} {cls : JavaClass}

theorem WellFormed.find?_rawName (wellFormed : model.WellFormed) (listed : cls ∈ model.classes) :
    (model.map JavaClass.view).find? ClassView.aliasName cls.rawName = some cls.view := by
  have entries : (model.map JavaClass.view).entries =
      model.classes.map fun cls => (cls.rawName, cls.view) := by
    rw [Catalog.map, wellFormed.stored, List.map_map]
    rfl
  have distinct : (model.map JavaClass.view).names.Nodup := by
    rw [Catalog.names, entries, List.map_map]
    exact wellFormed.distinct
  have stored : (cls.rawName, cls.view) ∈ (model.map JavaClass.view).entries := by
    rw [entries]
    exact List.mem_map_of_mem listed
  exact Catalog.find?_of_get? _ (Catalog.get?_of_mem distinct stored)

theorem exists_of_find? {name : Text} {view : ClassView}
    (found : (model.map JavaClass.view).find? ClassView.aliasName name = some view) :
    ∃ cls ∈ model.classes, view = cls.view := by
  have listed := Catalog.mem_values_of_find? found
  rw [values_map_view] at listed
  rcases List.mem_map.mp listed with ⟨cls, inModel, rfl⟩
  exact ⟨cls, inModel, rfl⟩

end Model

/-! ## Members -/

namespace ClassView

theorem mem_of_mem_membersNamed {α : Type} {rawName aliasName : α → Text} {name : Text}
    {members : List (Member α)} {member : Member α}
    (found : member ∈ membersNamed rawName aliasName name members) : member ∈ members := by
  unfold membersNamed at found
  split at found
  · exact (List.mem_filter.mp found).1
  · exact (List.mem_filter.mp found).1

/-- Members with a raw name come before those with it as an alias. -/
theorem membersNamed_rawName {α : Type} {rawName aliasName : α → Text} {members : List (Member α)}
    {member : Member α} (listed : member ∈ members) :
    membersNamed rawName aliasName (rawName member.item) members =
      members.filter fun other => rawName other.item = rawName member.item := by
  have found : member ∈ members.filter fun other => rawName other.item = rawName member.item :=
    List.mem_filter.mpr ⟨listed, decide_eq_true rfl⟩
  unfold membersNamed
  split
  next none =>
    rw [none] at found
    cases found
  next => rfl

end ClassView

namespace JavaClass

variable {cls : JavaClass}

/-- Where every method has an identity, the first method with an identity is found. -/
theorem methodWithIdentity?_map_member {methods : List JavaMethod}
    (typed : ∀ method ∈ methods, method.Typed) (identity : Text) :
    ClassView.methodWithIdentity? identity (methods.map cls.member) =
      .ok ((methods.find? fun method => method.identity = identity).map cls.member) := by
  induction methods with
  | nil => rfl
  | cons method methods ih =>
    rcases List.forall_mem_cons.mp typed with ⟨here, later⟩
    have hasIdentity : (!(cls.member method).item.hasIdentity) = false := by
      rw [Bool.not_eq_false']
      exact here.hasIdentity
    rw [List.map_cons, ClassView.methodWithIdentity?, hasIdentity, if_neg Bool.false_ne_true]
    rw [List.find?_cons]
    by_cases same : method.identity = identity
    · rw [decide_eq_true same]
      exact if_pos same
    · rw [decide_eq_false same, ← ih later]
      exact if_neg same

/-- Identities come first in a class, and every method has one of its own. -/
theorem WellFormed.findMethod_identity (wellFormed : cls.WellFormed) {method : JavaMethod}
    (declared : method ∈ cls.methods) :
    cls.view.findMethod method.identity = .ok (cls.member method) := by
  have found : cls.methods.find? (fun other => other.identity = method.identity) = some method := by
    cases result : cls.methods.find? (fun other => other.identity = method.identity) with
    | none => exact absurd (decide_eq_true rfl) (List.find?_eq_none.mp result method declared)
    | some other =>
      have satisfied := List.find?_some result
      have same : other.identity = method.identity := of_decide_eq_true satisfied
      rw [List.inj_on_of_nodup_map wellFormed.distinct (List.mem_of_find?_eq_some result) declared same]
  have first : ClassView.methodWithIdentity? method.identity cls.view.methods = _ :=
    methodWithIdentity?_map_member wellFormed.typed method.identity
  rw [ClassView.findMethod, first, found]
  rfl

theorem WellFormed.exists_of_findMethod (wellFormed : cls.WellFormed) {selector : Text}
    {member : Member JavaMethod} (found : cls.view.findMethod selector = .ok member) :
    ∃ method ∈ cls.methods, member = cls.member method := by
  have listed : member ∈ cls.view.methods := by
    have first : ClassView.methodWithIdentity? selector cls.view.methods = _ :=
      methodWithIdentity?_map_member wellFormed.typed selector
    rw [ClassView.findMethod, first] at found
    cases identified : cls.methods.find? (fun method => method.identity = selector) with
    | some method =>
      rw [identified] at found
      cases found
      exact List.mem_map_of_mem (List.mem_of_find?_eq_some identified)
    | none =>
      rw [identified] at found
      dsimp only [Option.map_none] at found
      split at found
      next => cases found
      next only =>
        cases found
        exact ClassView.mem_of_mem_membersNamed (only ▸ List.mem_cons_self)
      next => cases found
  rcases List.mem_map.mp listed with ⟨method, declared, rfl⟩
  exact ⟨method, declared, rfl⟩

theorem exists_of_findField {selector : Text} {member : Member JavaField}
    (found : cls.view.findField selector = .ok member) :
    ∃ field ∈ cls.fields, member = cls.member field := by
  have listed : member ∈ cls.view.fields := by
    unfold ClassView.findField at found
    split at found
    next => cases found
    next only =>
      cases found
      exact ClassView.mem_of_mem_membersNamed (only ▸ List.mem_cons_self)
    next => cases found
  rcases List.mem_map.mp listed with ⟨field, declared, rfl⟩
  exact ⟨field, declared, rfl⟩

/-- How many fields of the class have the raw name of a field. -/
def namesakes (cls : JavaClass) (field : JavaField) : Nat :=
  cls.fields.countP fun other => other.rawName = field.rawName

/-- A field can be selected by its raw name if no other one has it. -/
theorem findField_rawName {field : JavaField} (declared : field ∈ cls.fields) :
    cls.view.findField field.rawName =
      if cls.namesakes field = 1 then .ok (cls.member field)
      else .error (.ambiguousField field.rawName cls.rawName) := by
  let same := fun other : JavaField => decide (other.rawName = field.rawName)
  have listed : cls.member field ∈ cls.view.fields := List.mem_map_of_mem declared
  have found : ClassView.membersNamed JavaField.rawName JavaField.aliasName field.rawName
      cls.view.fields = (cls.fields.filter same).map cls.member :=
    (ClassView.membersNamed_rawName listed).trans List.filter_map
  have inside : field ∈ cls.fields.filter same := List.mem_filter.mpr ⟨declared, decide_eq_true rfl⟩
  have count : cls.namesakes field = (cls.fields.filter same).length := List.countP_eq_length_filter
  rw [ClassView.findField, found, count]
  match cls.fields.filter same, inside with
  | [only], inside =>
    rw [List.mem_singleton.mp inside]
    rfl
  | _ :: _ :: _, _ => rfl

end JavaClass

/-! ## Selections -/

namespace Model

variable {model : Model} {cls : JavaClass}

theorem WellFormed.resolve_cls (wellFormed : model.WellFormed) (listed : cls ∈ model.classes) :
    model.resolve ⟨cls.rawName, none, none⟩ = .ok (.cls (some cls.view)) := by
  rw [resolve, Catalog.resolve, wellFormed.find?_rawName listed]
  rfl

theorem WellFormed.resolve_method (wellFormed : model.WellFormed) (listed : cls ∈ model.classes)
    {method : JavaMethod} (declared : method ∈ cls.methods) :
    model.resolve ⟨cls.rawName, some method.identity, none⟩ =
      .ok (.method (some (cls.member method))) := by
  rw [resolve, Catalog.resolve, wellFormed.find?_rawName listed]
  change (cls.view.findMethod method.identity >>= _) = _
  rw [(wellFormed.classes cls listed).findMethod_identity declared]
  rfl

theorem WellFormed.resolve_field (wellFormed : model.WellFormed) (listed : cls ∈ model.classes)
    {field : JavaField} (declared : field ∈ cls.fields) :
    model.resolve ⟨cls.rawName, none, some field.rawName⟩ =
      if cls.namesakes field = 1 then .ok (.field (some (cls.member field)))
      else .error (.ambiguousField field.rawName cls.rawName) := by
  rw [resolve, Catalog.resolve, wellFormed.find?_rawName listed]
  change (cls.view.findField field.rawName >>= _) = _
  rw [JavaClass.findField_rawName declared]
  split
  · rfl
  · rfl

/-- Whatever is selected is a class of the model or a member of one. -/
theorem WellFormed.exists_of_resolve (wellFormed : model.WellFormed) {selectors : Selectors}
    {selection : Selection} (resolved : model.resolve selectors = .ok selection) :
    ∃ cls ∈ model.classes, selection = .cls (some cls.view) ∨
      (∃ method ∈ cls.methods, selection = .method (some (cls.member method))) ∨
      ∃ field ∈ cls.fields, selection = .field (some (cls.member field)) := by
  unfold resolve Catalog.resolve at resolved
  split at resolved
  next => cases resolved
  next =>
    split at resolved
    next => cases resolved
    next view found =>
      rcases exists_of_find? found with ⟨cls, listed, rfl⟩
      refine ⟨cls, listed, ?_⟩
      split at resolved
      next =>
        rcases Outcome.bind_eq_ok.mp resolved with ⟨member, selects, same⟩
        cases same
        rcases (wellFormed.classes cls listed).exists_of_findMethod selects with ⟨method, declared, rfl⟩
        exact Or.inr (Or.inl ⟨method, declared, rfl⟩)
      next =>
        rcases Outcome.bind_eq_ok.mp resolved with ⟨member, selects, same⟩
        cases same
        rcases JavaClass.exists_of_findField selects with ⟨field, declared, rfl⟩
        exact Or.inr (Or.inr ⟨field, declared, rfl⟩)
      next =>
        cases resolved
        exact Or.inl rfl

/-- What selecting a selection again comes to.  It gives the same unless the selection
is a field and others of the class have its raw name. -/
inductive Reselected (model : Model) : Selection → Except ResolveError Selection → Prop where
  | cls {cls : JavaClass} (listed : cls ∈ model.classes) :
    Reselected model (.cls (some cls.view)) (.ok (.cls (some cls.view)))
  | method {cls : JavaClass} {method : JavaMethod} (listed : cls ∈ model.classes)
      (declared : method ∈ cls.methods) :
    Reselected model (.method (some (cls.member method))) (.ok (.method (some (cls.member method))))
  | field {cls : JavaClass} {field : JavaField} {result : Except ResolveError Selection}
      (listed : cls ∈ model.classes) (declared : field ∈ cls.fields)
      (same : result = .ok (.field (some (cls.member field))) ↔ cls.namesakes field = 1)
      (ambiguous : cls.namesakes field ≠ 1 →
        result = .error (.ambiguousField field.rawName cls.rawName)) :
    Reselected model (.field (some (cls.member field))) result

/-- In a loaded model every class is selected by its raw name, and every method by the
raw name of its class and its identity.  Every selection has a description with
selectors, and they select it again if it is a class or a method, and if it is a field
exactly if no other field of the class has its raw name. -/
theorem resolve_description {document : Json} (loaded : ofJson document = .ok model) :
    (∀ cls ∈ model.classes, model.resolve ⟨cls.rawName, none, none⟩ = .ok (.cls (some cls.view)) ∧
      ∀ method ∈ cls.methods, model.resolve ⟨cls.rawName, some method.identity, none⟩ =
        .ok (.method (some (cls.member method)))) ∧
    ∀ selectors selection, model.resolve selectors = .ok selection →
      ∃ description again, selection.describe = .ok description ∧
        Selectors.ofDescription? description = some again ∧
        Reselected model selection (model.resolve again) := by
  have wellFormed := (ofJson_eq_ok.mp loaded).2
  constructor
  · intro cls listed
    exact ⟨wellFormed.resolve_cls listed, fun _ => wellFormed.resolve_method listed⟩
  · intro selectors selection resolved
    rcases wellFormed.exists_of_resolve resolved with
      ⟨cls, listed, rfl | ⟨method, declared, rfl⟩ | ⟨field, declared, rfl⟩⟩
    · refine ⟨_, ⟨cls.rawName, none, none⟩, rfl, rfl, ?_⟩
      rw [wellFormed.resolve_cls listed]
      exact .cls listed
    · have typed := (wellFormed.classes cls listed).typed method declared
      refine ⟨_, ⟨cls.rawName, some method.identity, none⟩, if_pos typed.hasIdentity, rfl, ?_⟩
      rw [wellFormed.resolve_method listed declared]
      exact .method listed declared
    · refine ⟨_, ⟨cls.rawName, none, some field.rawName⟩, rfl, rfl, ?_⟩
      rw [wellFormed.resolve_field listed declared]
      by_cases alone : cls.namesakes field = 1
      · rw [if_pos alone]
        exact .field listed declared ⟨fun _ => alone, fun _ => rfl⟩ fun several => (several alone).elim
      · rw [if_neg alone]
        exact .field listed declared ⟨nofun, fun only => (alone only).elim⟩ fun _ => rfl

/-- A document in which an alias is the raw name of another class, the raw name of a
method is the identity of another one, and two fields have the same raw name. -/
def lookalikesDocument : Json :=
  .obj [("classes", .arr [
    .obj [("name", .str "A"), ("alias", .str "B"),
      ("fields", .arr [.obj [("name", .str "x"), ("alias", .str "first")],
        .obj [("name", .str "x"), ("alias", .str "second")]]),
      ("methods", .arr [.obj [("name", .str "f()V")], .obj [("name", .str "f")]])],
    .obj [("name", .str "B"), ("alias", .str "A")]])]

def lookalikesClass : JavaClass :=
  ⟨"A", "B", [⟨"x", "first", none⟩, ⟨"x", "second", none⟩],
    [⟨"f()V", "f()V", [], .void, [], false⟩, ⟨"f", "f", [], .void, [], false⟩]⟩

theorem resolve_description_lookalikes :
    ∃ model, ofJson lookalikesDocument = .ok model ∧
      model.resolve ⟨"A", some "f()V", none⟩ =
        .ok (.method (some (lookalikesClass.member ⟨"f", "f", [], .void, [], false⟩))) ∧
      (∃ description again,
        (Selection.field (some (lookalikesClass.member ⟨"x", "second", none⟩))).describe =
          .ok description ∧
        Selectors.ofDescription? description = some again ∧
        model.Reselected (.field (some (lookalikesClass.member ⟨"x", "second", none⟩)))
          (model.resolve again)) ∧
      model.resolve ⟨"A", none, some "x"⟩ = .error (.ambiguousField "x" "A") := by
  have loaded : ofJson lookalikesDocument =
      .ok (.ofClasses [lookalikesClass, ⟨"B", "A", [], []⟩]) := rfl
  have again := resolve_description loaded
  have method := (again.1 lookalikesClass List.mem_cons_self).2 ⟨"f", "f", [], .void, [], false⟩
    (List.mem_cons_of_mem _ List.mem_cons_self)
  exact ⟨_, loaded, method, again.2 ⟨"A", none, some "second"⟩ _ rfl, rfl⟩

end Model

end HookScript
