import HookScript.Program.Class

/-!
# Catalogs of classes

A catalog keeps classes by their raw names.  A class that is added under a name
that is taken replaces the one before it, in the same place.  A class is found
by its raw name, or else by its alias if no other class in the catalog has the
same alias.
-/

namespace HookScript

/-- Entries by name, in the order in which the names were first added. -/
structure Catalog (α : Type) where
  entries : List (Text × α)

namespace Catalog

variable {α β : Type}

def empty : Catalog α := ⟨[]⟩

/-- Replaces the entry of a name, or adds it at the end. -/
def insertEntry (name : Text) (value : α) : List (Text × α) → List (Text × α)
  | [] => [(name, value)]
  | (key, old) :: rest =>
    if key = name then (key, value) :: rest else (key, old) :: insertEntry name value rest

def insert (catalog : Catalog α) (name : Text) (value : α) : Catalog α :=
  ⟨insertEntry name value catalog.entries⟩

def names (catalog : Catalog α) : List Text := catalog.entries.map Prod.fst

/-- The entries in the order of their names. -/
def values (catalog : Catalog α) : List α := catalog.entries.map Prod.snd

def get? (catalog : Catalog α) (name : Text) : Option α := catalog.entries.lookup name

def map (f : α → β) (catalog : Catalog α) : Catalog β :=
  ⟨catalog.entries.map fun (name, value) => (name, f value)⟩

/-- The entry of a name, or else the only entry with it as an alias. -/
def find? (aliasOf : α → Text) (catalog : Catalog α) (name : Text) : Option α :=
  match catalog.get? name with
  | some value => some value
  | none =>
    match catalog.values.filter fun value => aliasOf value = name with
    | [value] => some value
    | _ => none

theorem lookup_insertEntry (name key : Text) (value : α) (entries : List (Text × α)) :
    (insertEntry name value entries).lookup key =
      if key = name then some value else entries.lookup key := by
  induction entries with
  | nil =>
    by_cases same : key = name
    · simp only [insertEntry, List.lookup_cons, same, beq_self_eq_true, if_true]
    · simp only [insertEntry, List.lookup_cons, beq_false_of_ne same, if_neg same]
  | cons entry rest ih =>
    obtain ⟨other, old⟩ := entry
    by_cases here : other = name
    · subst here
      by_cases same : key = other
      · simp only [insertEntry, if_true, List.lookup_cons, same, beq_self_eq_true]
      · simp only [insertEntry, if_true, List.lookup_cons, beq_false_of_ne same, if_neg same]
    · by_cases found : key = other
      · subst found
        simp only [insertEntry, if_neg here, List.lookup_cons, beq_self_eq_true]
      · simp only [insertEntry, if_neg here, List.lookup_cons, beq_false_of_ne found, ih]

/-- The last entry added under a name is the one that is kept. -/
theorem get?_insert (catalog : Catalog α) (name key : Text) (value : α) :
    (catalog.insert name value).get? key = if key = name then some value else catalog.get? key :=
  lookup_insertEntry name key value catalog.entries

/-- A name that is taken keeps its place, and a new one goes to the end. -/
theorem names_insert (catalog : Catalog α) (name : Text) (value : α) :
    (catalog.insert name value).names =
      if name ∈ catalog.names then catalog.names else catalog.names ++ [name] := by
  obtain ⟨entries⟩ := catalog
  simp only [insert, names]
  induction entries with
  | nil => rfl
  | cons entry rest ih =>
    obtain ⟨key, old⟩ := entry
    by_cases here : key = name
    · simp only [insertEntry, here, if_true, List.map_cons, List.mem_cons, true_or]
    · simp only [insertEntry, if_neg here, List.map_cons, List.mem_cons, Ne.symm here, false_or, ih]
      by_cases taken : name ∈ rest.map Prod.fst
      · simp only [taken, if_true]
      · simp only [taken, if_false, List.cons_append]

end Catalog

/-- The classes of a program. -/
abbrev Model := Catalog JavaClass

namespace Model

def add (model : Model) (cls : JavaClass) : Model := model.insert cls.rawName cls

/-- The model of a list of classes, added one after the other. -/
def ofClasses (classes : List JavaClass) : Model := classes.foldl add .empty

/-- The classes of the model in order. -/
def classes (model : Model) : List JavaClass := model.values

end Model

end HookScript
