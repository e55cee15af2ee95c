import HookScript.Proofs.Program.Finding
import Mathlib.Data.List.Induction

/-!
# Classes that replace each other

Classes may be added under a raw name that is taken.  The model then has the last of them,
in the place of the first.  Since the last one may have another alias, a class that is
replaced can both make an alias clear and make it ambiguous.

Both the class that is found by its raw name and the classes that are looked at for
an alias can be told from the classes that no later one replaces.  So a class that is replaced
makes no difference to what is found, though it decides on the place of its name.
-/

namespace HookScript

section Kept

variable {α : Type} {nameOf : α → Text}

/-- The last of the values with a name. -/
def lastNamed? (nameOf : α → Text) (name : Text) (values : List α) : Option α :=
  (values.filter fun value => nameOf value = name).getLast?

/-- The values that no later one with the same name replaces. -/
def kept (nameOf : α → Text) : List α → List α
  | [] => []
  | value :: rest =>
    if nameOf value ∈ rest.map nameOf then kept nameOf rest else value :: kept nameOf rest

theorem lastNamed?_append_singleton (name : Text) (values : List α) (value : α) :
    lastNamed? nameOf name (values ++ [value]) =
      if name = nameOf value then some value else lastNamed? nameOf name values := by
  by_cases same : nameOf value = name
  · simp [lastNamed?, same]
  · simp [lastNamed?, same, Ne.symm same]

theorem mem_kept {value : α} {values : List α} (stays : value ∈ kept nameOf values) :
    value ∈ values := by
  induction values with
  | nil => exact stays
  | cons first rest ih =>
    rw [kept] at stays
    split at stays
    · exact List.mem_cons_of_mem _ (ih stays)
    · exact List.mem_cons.mpr ((List.mem_cons.mp stays).imp_right ih)

theorem nodup_kept (values : List α) : ((kept nameOf values).map nameOf).Nodup := by
  induction values with
  | nil => exact List.nodup_nil
  | cons value rest ih =>
    rw [kept]
    split
    next => exact ih
    next last =>
      rw [List.map_cons, List.nodup_cons]
      refine ⟨fun taken => last ?_, ih⟩
      obtain ⟨other, stays, same⟩ := List.mem_map.mp taken
      exact same ▸ List.mem_map_of_mem (mem_kept stays)

theorem kept_append (values later : List α) :
    kept nameOf (values ++ later) =
      (kept nameOf values).filter (fun value => nameOf value ∉ later.map nameOf) ++
        kept nameOf later := by
  induction values with
  | nil => rfl
  | cons value rest ih =>
    have names : nameOf value ∈ (rest ++ later).map nameOf ↔
        nameOf value ∈ rest.map nameOf ∨ nameOf value ∈ later.map nameOf := by
      rw [List.map_append, List.mem_append]
    simp only [List.cons_append, kept, ih, names]
    by_cases soon : nameOf value ∈ rest.map nameOf
    · simp only [soon, true_or, if_true]
    · by_cases late : nameOf value ∈ later.map nameOf
      · simp only [soon, late, or_true, if_true, if_false, List.filter_cons, not_true_eq_false,
          decide_false, Bool.false_eq_true]
      · simp only [soon, late, or_self, if_true, if_false, List.filter_cons, not_false_eq_true,
          decide_true, List.cons_append]

/-- A value that is replaced may be left out. -/
theorem kept_of_replaced {replaced : α} {later : List α}
    (again : nameOf replaced ∈ later.map nameOf) (values : List α) :
    kept nameOf (values ++ replaced :: later) = kept nameOf (values ++ later) := by
  have same (name : Text) : name ∈ (replaced :: later).map nameOf ↔ name ∈ later.map nameOf := by
    rw [List.map_cons, List.mem_cons]
    exact or_iff_right_of_imp fun taken => taken ▸ again
  rw [kept_append, kept_append, kept, if_pos again]
  simp only [same]

theorem lastNamed?_eq_find?_kept (name : Text) (values : List α) :
    lastNamed? nameOf name values = (kept nameOf values).find? fun value => nameOf value = name := by
  induction values using List.reverseRecOn with
  | nil => rfl
  | append_singleton values value ih =>
    rw [lastNamed?_append_singleton, kept_append, List.find?_append, List.find?_filter, ih]
    by_cases same : name = nameOf value
    · subst same
      have none : (kept nameOf values).find? (fun _ => false) = none :=
        List.find?_eq_none.mpr fun _ _ => Bool.false_ne_true
      simp [kept, none]
    · have others : (fun other => !decide (nameOf other = nameOf value) &&
          decide (nameOf other = name)) = fun other => decide (nameOf other = name) := by
        funext other
        by_cases wanted : nameOf other = name <;> simp [wanted, same]
      simp [kept, same, Ne.symm same, others]

end Kept

namespace Catalog

variable {α : Type} {nameOf : α → Text}

/-- The catalog of values that are added one after the other, each under its name. -/
def ofValues (nameOf : α → Text) (values : List α) : Catalog α :=
  values.foldl (fun catalog value => catalog.insert (nameOf value) value) .empty

theorem ofValues_append_singleton (values : List α) (value : α) :
    ofValues nameOf (values ++ [value]) = (ofValues nameOf values).insert (nameOf value) value := by
  rw [ofValues, List.foldl_append]
  rfl

theorem names_ofValues (values : List α) :
    (ofValues nameOf values).names = (values.map nameOf).eraseDups := by
  induction values using List.reverseRecOn with
  | nil => rfl
  | append_singleton values value ih =>
    rw [ofValues_append_singleton, names_insert, ih, List.map_append, List.eraseDups_append]
    by_cases taken : nameOf value ∈ values.map nameOf
    · simp [-List.mem_map, taken, List.removeAll]
    · simp [-List.mem_map, taken, List.removeAll, List.eraseDups_cons]

theorem get?_ofValues (values : List α) (name : Text) :
    (ofValues nameOf values).get? name = lastNamed? nameOf name values := by
  induction values using List.reverseRecOn with
  | nil => rfl
  | append_singleton values value ih =>
    rw [ofValues_append_singleton, get?_insert, ih, lastNamed?_append_singleton]

theorem insertEntry_perm {entries : List (Text × α)} (distinct : (entries.map Prod.fst).Nodup)
    (name : Text) (value : α) :
    (insertEntry name value entries).Perm
      (entries.filter (fun entry => entry.1 ≠ name) ++ [(name, value)]) := by
  induction entries with
  | nil => exact .refl _
  | cons entry rest ih =>
    obtain ⟨key, old⟩ := entry
    obtain ⟨fresh, distinct⟩ := List.nodup_cons.mp distinct
    by_cases here : key = name
    · subst here
      have others : rest.filter (fun entry => entry.1 ≠ key) = rest := by
        rw [List.filter_eq_self]
        intro entry listed
        exact decide_eq_true fun same => fresh (List.mem_map.mpr ⟨entry, listed, same⟩)
      rw [insertEntry, if_pos rfl, List.filter_cons_of_neg (by simp), others]
      exact (List.perm_append_singleton _ _).symm
    · rw [insertEntry, if_neg here, List.filter_cons_of_pos (by simpa using here)]
      exact (ih distinct).cons _

/-- The entries of a catalog are the values that are kept, in some order. -/
theorem entries_ofValues_perm (values : List α) :
    (ofValues nameOf values).entries.Perm
      ((kept nameOf values).map fun value => (nameOf value, value)) := by
  induction values using List.reverseRecOn with
  | nil => exact .refl _
  | append_singleton values value ih =>
    have distinct : ((ofValues nameOf values).entries.map Prod.fst).Nodup := by
      rw [(ih.map Prod.fst).nodup_iff, List.map_map]
      exact nodup_kept values
    rw [ofValues_append_singleton]
    refine (insertEntry_perm distinct (nameOf value) value).trans ?_
    rw [kept_append, List.map_append]
    have others : (fun other => decide (nameOf other ∉ [value].map nameOf)) =
        (fun entry : Text × α => decide (entry.1 ≠ nameOf value)) ∘ fun other =>
          (nameOf other, other) := by
      funext other
      simp
    rw [others, ← List.filter_map]
    exact (ih.filter _).append (.refl _)

theorem values_ofValues_perm (values : List α) :
    (ofValues nameOf values).values.Perm (kept nameOf values) := by
  have entries : ((ofValues nameOf values).entries.map Prod.snd).Perm _ :=
    (entries_ofValues_perm values).map Prod.snd
  rw [List.map_map] at entries
  exact entries.trans (.of_eq (List.map_id _))

theorem find?_ofValues (aliasOf : α → Text) (values : List α) (name : Text) :
    (ofValues nameOf values).find? aliasOf name =
      (lastNamed? nameOf name values).or
        (only? ((kept nameOf values).filter fun value => aliasOf value = name)) := by
  rw [find?_eq_or, get?_ofValues, only?_of_perm ((values_ofValues_perm values).filter _)]

end Catalog

namespace Model

/-- What a name stands for after classes have been added: the last class with this raw name,
or else the only class with this alias that none has replaced. -/
def classFor? (name : Text) (added : List JavaClass) : Option JavaClass :=
  (lastNamed? JavaClass.rawName name added).or
    (only? ((kept JavaClass.rawName added).filter fun cls => cls.aliasName = name))

theorem mem_kept_of_classFor? {name : Text} {cls : JavaClass} {added : List JavaClass}
    (found : classFor? name added = some cls) : cls ∈ kept JavaClass.rawName added := by
  rw [classFor?, lastNamed?_eq_find?_kept] at found
  rcases Option.or_eq_some_iff.mp found with byRawName | ⟨_, byAlias⟩
  · exact List.mem_of_find?_eq_some byRawName
  · exact mem_of_only?_filter byAlias

theorem classFor?_of_replaced {replaced : JavaClass} {later : List JavaClass}
    (again : replaced.rawName ∈ later.map JavaClass.rawName) (name : Text)
    (before : List JavaClass) :
    classFor? name (before ++ replaced :: later) = classFor? name (before ++ later) := by
  simp only [classFor?, lastNamed?_eq_find?_kept, kept_of_replaced again]

theorem find?_ofClasses (added : List JavaClass) (name : Text) :
    (ofClasses added).find? JavaClass.aliasName name = classFor? name added :=
  Catalog.find?_ofValues JavaClass.aliasName added name

theorem resolve_className (model : Model) (name : Text) :
    model.resolve ⟨name, none, none⟩ =
      match model.find? JavaClass.aliasName name with
      | some cls => .ok (.cls (some cls.view))
      | none => .error (.noClass name) := by
  have found : (model.map JavaClass.view).find? ClassView.aliasName name =
      (model.find? JavaClass.aliasName name).map JavaClass.view := Catalog.find?_map ..
  rw [resolve, Catalog.resolve, found]
  cases model.find? JavaClass.aliasName name <;> rfl

/-- Of the classes that are added under one raw name a model has the last, in the place of
the first.  A class is found by its raw name, or else by an alias that no other class of the
model has.  A class that is replaced is never found, and makes no difference to what is. -/
theorem last_added_is_found (added : List JavaClass) :
    (ofClasses added).names = (added.map JavaClass.rawName).eraseDups ∧
      (∀ name, (ofClasses added).get? name = lastNamed? JavaClass.rawName name added) ∧
      (ofClasses added).classes.Perm (kept JavaClass.rawName added) ∧
      (∀ name, (ofClasses added).find? JavaClass.aliasName name = classFor? name added ∧
        (ofClasses added).resolve ⟨name, none, none⟩ =
          match classFor? name added with
          | some cls => .ok (.cls (some cls.view))
          | none => .error (.noClass name)) ∧
      (∀ name cls, classFor? name added = some cls → cls ∈ kept JavaClass.rawName added) ∧
      ∀ before replaced later, added = before ++ replaced :: later →
        replaced.rawName ∈ later.map JavaClass.rawName →
        ∀ name, (ofClasses added).find? JavaClass.aliasName name =
          (ofClasses (before ++ later)).find? JavaClass.aliasName name := by
  refine ⟨Catalog.names_ofValues added, Catalog.get?_ofValues added,
    Catalog.values_ofValues_perm added, fun name => ⟨find?_ofClasses added name, ?_⟩,
    fun _ _ => mem_kept_of_classFor?, ?_⟩
  · rw [resolve_className, find?_ofClasses]
  · rintro before replaced later rfl again name
    rw [find?_ofClasses, find?_ofClasses, classFor?_of_replaced again]

/-- A class that is replaced takes its alias along, so that another class can be found by it. -/
theorem last_added_is_found_alias :
    let replaced : JavaClass := ⟨"a.A", "X", [], []⟩
    let other : JavaClass := ⟨"b.B", "X", [], []⟩
    let later : JavaClass := ⟨"a.A", "Y", [], []⟩
    (ofClasses [replaced, other, later]).names = ["a.A", "b.B"] ∧
      (ofClasses [replaced, other, later]).find? JavaClass.aliasName "X" = some other ∧
      (ofClasses [replaced, other, later]).find? JavaClass.aliasName "X" =
        (ofClasses [other, later]).find? JavaClass.aliasName "X" := by
  intro replaced other later
  obtain ⟨names, _, _, found, _, unchanged⟩ := last_added_is_found [replaced, other, later]
  exact ⟨names, (found "X").1, unchanged [] replaced [other, later] rfl (by decide) "X"⟩

end Model

end HookScript
