import HookScript.Proofs.Program.Resolution
import Mathlib.Data.List.Perm.Basic

/-!
# What selectors find

Some selectors take the first element that matches, others the only one.  Raw names
of classes and identities of methods are not given twice in a well-formed model, so the
first class or method with one is the only one as well.  Hence everything that a
selector finds is the only element of a part of a list, and its place in the list does
not count.
-/

namespace HookScript

variable {α β : Type}

/-! ## The only element -/

/-- The element of a list that has no other. -/
def only? : List α → Option α
  | [value] => some value
  | _ => none

theorem only?_eq_some {values : List α} {value : α} :
    only? values = some value ↔ values = [value] := by
  match values with
  | [] => exact ⟨nofun, nofun⟩
  | [other] => simp only [only?, Option.some.injEq, List.cons.injEq, and_true]
  | _ :: _ :: _ => exact ⟨nofun, nofun⟩

theorem only?_of_perm {first second : List α} (perm : first.Perm second) :
    only? first = only? second := by
  apply Option.ext
  intro value
  rw [only?_eq_some, only?_eq_some]
  constructor
  · rintro rfl
    exact List.perm_singleton.mp perm.symm
  · rintro rfl
    exact List.perm_singleton.mp perm

theorem only?_map (f : α → β) (values : List α) : only? (values.map f) = (only? values).map f := by
  match values with
  | [] => rfl
  | [_] => rfl
  | _ :: _ :: _ => rfl

theorem mem_of_only?_filter {p : α → Bool} {values : List α} {value : α}
    (found : only? (values.filter p) = some value) : value ∈ values := by
  have inside : value ∈ values.filter p := only?_eq_some.mp found ▸ List.mem_cons_self
  exact (List.mem_filter.mp inside).1

/-- Where keys are not given twice, the first element with a key is the only one. -/
theorem find?_eq_only? [DecidableEq β] {key : α → β} {values : List α}
    (distinct : (values.map key).Nodup) (wanted : β) :
    values.find? (fun value => key value = wanted) =
      only? (values.filter fun value => key value = wanted) := by
  induction values with
  | nil => rfl
  | cons value rest ih =>
    rw [List.map_cons, List.nodup_cons] at distinct
    rw [List.find?_cons, List.filter_cons]
    by_cases same : key value = wanted
    · have others : (rest.filter fun value => key value = wanted) = [] := by
        apply List.filter_eq_nil_iff.mpr
        intro other listed equal
        have taken := List.mem_map_of_mem listed (f := key)
        rw [of_decide_eq_true equal, ← same] at taken
        exact distinct.1 taken
      rw [decide_eq_true same, if_pos rfl, others]
      rfl
    · rw [decide_eq_false same, if_neg Bool.false_ne_true]
      exact ih distinct.2

/-! ## Members -/

/-- The elements with a raw name, or else those with it as an alias. -/
def named (rawName aliasName : α → Text) (name : Text) (values : List α) : List α :=
  match values.filter fun value => rawName value = name with
  | [] => values.filter fun value => aliasName value = name
  | found => found

theorem named_perm {rawName aliasName : α → Text} {name : Text} {first second : List α}
    (perm : first.Perm second) :
    (named rawName aliasName name first).Perm (named rawName aliasName name second) := by
  have byRawName := perm.filter fun value => rawName value = name
  have byAlias := perm.filter fun value => aliasName value = name
  unfold named
  split
  next none =>
    rw [none] at byRawName
    rw [← byRawName.nil_eq]
    exact byAlias
  next found some =>
    split
    next none =>
      rw [none] at byRawName
      exact absurd byRawName.eq_nil some
    next => exact byRawName

theorem mem_of_only?_named {rawName aliasName : α → Text} {name : Text} {values : List α} {value : α}
    (found : only? (named rawName aliasName name values) = some value) : value ∈ values := by
  unfold named at found
  split at found
  · exact mem_of_only?_filter found
  · exact mem_of_only?_filter found

namespace JavaClass

variable {cls : JavaClass}

theorem membersNamed_map_member {rawName aliasName : α → Text} {name : Text} (values : List α) :
    ClassView.membersNamed rawName aliasName name (values.map cls.member) =
      (named rawName aliasName name values).map cls.member := by
  have byKey : ∀ key : α → Text,
      (values.map cls.member).filter (fun member => key member.item = name) =
        (values.filter fun value => key value = name).map cls.member := fun _ => List.filter_map
  unfold ClassView.membersNamed named
  rw [byKey, byKey]
  cases values.filter fun value => rawName value = name <;> rfl

def method? (cls : JavaClass) (selector : Text) : Option JavaMethod :=
  (only? (cls.methods.filter fun method => method.identity = selector)).or
    (only? (named JavaMethod.rawName JavaMethod.aliasName selector cls.methods))

def field? (cls : JavaClass) (selector : Text) : Option JavaField :=
  only? (named JavaField.rawName JavaField.aliasName selector cls.fields)

theorem mem_of_method? {selector : Text} {method : JavaMethod}
    (found : cls.method? selector = some method) : method ∈ cls.methods := by
  rcases Option.or_eq_some_iff.mp found with byIdentity | ⟨_, byName⟩
  · exact mem_of_only?_filter byIdentity
  · exact mem_of_only?_named byName

theorem WellFormed.toOption_findMethod (wellFormed : cls.WellFormed) (selector : Text) :
    (cls.view.findMethod selector).toOption = (cls.method? selector).map cls.member := by
  have first : ClassView.methodWithIdentity? selector cls.view.methods = _ :=
    methodWithIdentity?_map_member wellFormed.typed selector
  have others : ClassView.membersNamed JavaMethod.rawName JavaMethod.aliasName selector
      cls.view.methods = _ := membersNamed_map_member cls.methods
  rw [ClassView.findMethod, first, find?_eq_only? wellFormed.distinct, method?]
  cases only? (cls.methods.filter fun method => method.identity = selector) with
  | some method => rfl
  | none =>
    dsimp only [Option.map_none, Option.none_or]
    rw [others]
    rcases named JavaMethod.rawName JavaMethod.aliasName selector cls.methods with
      _ | ⟨first, _ | ⟨second, rest⟩⟩
    · rfl
    · rfl
    · rfl

theorem toOption_findField (selector : Text) :
    (cls.view.findField selector).toOption = (cls.field? selector).map cls.member := by
  have found : ClassView.membersNamed JavaField.rawName JavaField.aliasName selector
      cls.view.fields = _ := membersNamed_map_member cls.fields
  rw [ClassView.findField, found, field?]
  rcases named JavaField.rawName JavaField.aliasName selector cls.fields with
    _ | ⟨first, _ | ⟨second, rest⟩⟩
  · rfl
  · rfl
  · rfl

/-! ## Classes -/

/-- The class that a name stands for. -/
def find? (name : Text) (classes : List JavaClass) : Option JavaClass :=
  (only? (classes.filter fun cls => cls.rawName = name)).or
    (only? (classes.filter fun cls => cls.aliasName = name))

/-- The member that selectors stand for in a class; none if they ask for the class, or
for a method and a field at once. -/
def member? (selectors : Selectors) (cls : JavaClass) : Option Selection :=
  match selectors.method?, selectors.field? with
  | some selector, none => (cls.method? selector).map fun method => .method (some (cls.member method))
  | none, some selector => (cls.field? selector).map fun field => .field (some (cls.member field))
  | _, _ => none

end JavaClass

theorem Catalog.find?_eq_or (catalog : Catalog α) (aliasOf : α → Text) (name : Text) :
    catalog.find? aliasOf name =
      (catalog.get? name).or (only? (catalog.values.filter fun value => aliasOf value = name)) := by
  unfold find?
  split
  next found =>
    rw [found]
    rfl
  next absent =>
    rw [absent, Option.none_or]
    split
    next single =>
      rw [single]
      rfl
    next several =>
      apply Option.ext
      intro value
      rw [only?_eq_some]
      exact ⟨nofun, fun single => absurd single (several value)⟩

theorem Catalog.get?_map (f : α → β) (catalog : Catalog α) (name : Text) :
    (catalog.map f).get? name = (catalog.get? name).map f := by
  obtain ⟨entries⟩ := catalog
  induction entries with
  | nil => rfl
  | cons entry rest ih =>
    obtain ⟨key, value⟩ := entry
    simp only [Catalog.get?, Catalog.map, List.map_cons, List.lookup_cons]
    by_cases same : name = key
    · simp only [same, beq_self_eq_true, Option.map_some]
    · simp only [beq_false_of_ne same]
      exact ih

/-- What is found does not depend on what else entries hold. -/
theorem Catalog.find?_map (f : α → β) (aliasOf : β → Text) (catalog : Catalog α) (name : Text) :
    (catalog.map f).find? aliasOf name =
      (catalog.find? (fun value => aliasOf (f value)) name).map f := by
  have values : (catalog.map f).values = catalog.values.map f := by
    simp only [Catalog.values, Catalog.map, List.map_map, Function.comp_def]
  rw [Catalog.find?_eq_or, Catalog.find?_eq_or, Catalog.get?_map, values, List.filter_map, only?_map,
    Option.map_or]
  rfl

namespace Model

variable {model : Model}

theorem WellFormed.find?_eq (wellFormed : model.WellFormed) (name : Text) :
    (model.map JavaClass.view).find? ClassView.aliasName name =
      (JavaClass.find? name model.classes).map JavaClass.view := by
  have byRawName : model.get? name =
      only? (model.classes.filter fun cls => cls.rawName = name) := by
    rw [← find?_eq_only? wellFormed.distinct, Catalog.get?, wellFormed.stored]
    induction model.classes with
    | nil => rfl
    | cons cls rest ih =>
      rw [List.map_cons, List.lookup_cons, List.find?_cons]
      by_cases same : cls.rawName = name
      · rw [decide_eq_true same, same, beq_self_eq_true]
      · rw [decide_eq_false same, beq_false_of_ne (Ne.symm same)]
        exact ih
  have found : model.find? JavaClass.aliasName name = JavaClass.find? name model.classes := by
    rw [Catalog.find?_eq_or, byRawName]
    rfl
  rw [Catalog.find?_map, ← found]
  rfl

theorem mem_of_find? {name : Text} {cls : JavaClass} {classes : List JavaClass}
    (found : JavaClass.find? name classes = some cls) : cls ∈ classes := by
  rcases Option.or_eq_some_iff.mp found with byRawName | ⟨_, byAlias⟩
  · exact mem_of_only?_filter byRawName
  · exact mem_of_only?_filter byAlias

/-- What selectors of a member select is the member that they stand for, in the class
that they stand for. -/
theorem WellFormed.toOption_resolve (wellFormed : model.WellFormed) {selectors : Selectors}
    (ofMember : selectors.method?.isSome = true ∨ selectors.field?.isSome = true) :
    (model.resolve selectors).toOption =
      (JavaClass.find? selectors.className model.classes).bind (JavaClass.member? selectors) := by
  obtain ⟨className, method?, field?⟩ := selectors
  have found := wellFormed.find?_eq className
  rw [resolve, Catalog.resolve, found]
  cases named : JavaClass.find? className model.classes with
  | none =>
    cases method? with
    | none => rfl
    | some _ =>
      cases field? with
      | none => rfl
      | some _ => rfl
  | some cls =>
    have wellClass := wellFormed.classes cls (mem_of_find? named)
    cases method? with
    | none =>
      cases field? with
      | none =>
        rcases ofMember with impossible | impossible
        · cases impossible
        · cases impossible
      | some selector =>
        change (cls.view.findField selector >>= fun member =>
          .ok (Selection.field (some member))).toOption = _
        rw [Outcome.toOption_bind_ok, JavaClass.toOption_findField, Option.map_map]
        rfl
    | some selector =>
      cases field? with
      | some _ => rfl
      | none =>
        change (cls.view.findMethod selector >>= fun member =>
          .ok (Selection.method (some member))).toOption = _
        rw [Outcome.toOption_bind_ok, wellClass.toOption_findMethod, Option.map_map]
        rfl

end Model

end HookScript
