import HookScript.Program.Loading
import HookScript.Proofs.Outcome

/-!
# Where errors lie

A loader that is given an entry and its path blames the entry or a part of it.
Which parts these are depends on the kind of the entry alone, and the part that is
blamed is always there.  In a list of entries it is the first one that cannot be
read, with those before it at hand.
-/

namespace HookScript

open Json (Path lookup)

namespace Loading

variable {α β : Type} {path : Path} {members : List (Text × Json)} {name : Text}

/-! ## Parts of entries -/

/-- Nothing but an entry itself. -/
inductive EntryPart : Path → Prop where
  | entry : EntryPart []

/-- The parts of a field that may be blamed, from the path of the field on. -/
inductive FieldPart : Path → Prop where
  | entry : FieldPart []
  | type : FieldPart [.key "type"]

/-- The parts of a method that may be blamed, from the path of the method on. -/
inductive MethodPart : Path → Prop where
  | entry : MethodPart []
  | argument (place : Nat) : MethodPart [.key "args", .index place]
  | argumentName (place : Nat) : MethodPart [.key "argNames", .index place]
  | result : MethodPart [.key "ret"]

/-- The parts of a class that may be blamed, from the path of the class on. -/
inductive ClassPart : Path → Prop where
  | entry : ClassPart []
  | field (place : Nat) {part : Path} (inside : FieldPart part) :
      ClassPart (.key "fields" :: .index place :: part)
  | method (place : Nat) {part : Path} (inside : MethodPart part) :
      ClassPart (.key "methods" :: .index place :: part)

/-- The parts of a document that may be blamed. -/
inductive DocumentPart : Path → Prop where
  | document : DocumentPart []
  | cls (place : Nat) {part : Path} (inside : ClassPart part) :
      DocumentPart (.key "classes" :: .index place :: part)

/-- All errors of an outcome lie at a path. -/
def BlamesEntry (path : Path) (outcome : Except LoadError α) : Prop :=
  ∀ error, outcome = .error error → error.path = path

/-- All errors of an outcome blame an entry at a path for one of some parts that the
entry has. -/
def Blames (parts : Path → Prop) (path : Path) (entry : Json) (outcome : Except LoadError α) :
    Prop :=
  ∀ error, outcome = .error error →
    ∃ part, parts part ∧ error.path = path ++ part ∧ (entry.at? part).isSome = true

namespace BlamesEntry

theorem ok (value : α) : BlamesEntry path (.ok value) := nofun

theorem error (flaw : LoadFlaw) : BlamesEntry path (.error ⟨flaw, path⟩ : Except LoadError α) := by
  intro found same
  cases same
  rfl

theorem bind {first : Except LoadError α} {next : α → Except LoadError β}
    (head : BlamesEntry path first) (tail : ∀ value, BlamesEntry path (next value)) :
    BlamesEntry path (first >>= next) := by
  intro found failed
  rcases Outcome.bind_eq_error.mp failed with first | ⟨value, _, later⟩
  · exact head found first
  · exact tail value found later

theorem blames {parts : Path → Prop} {outcome : Except LoadError α} (whole : parts [])
    (entry : Json) (errors : BlamesEntry path outcome) : Blames parts path entry outcome := by
  intro found failed
  have here := errors found failed
  exact ⟨[], whole, here.trans (List.append_nil path).symm, rfl⟩

end BlamesEntry

namespace Blames

variable {parts : Path → Prop} {entry : Json}

theorem bind {first : Except LoadError α} {next : α → Except LoadError β}
    (head : Blames parts path entry first)
    (tail : ∀ value, first = .ok value → Blames parts path entry (next value)) :
    Blames parts path entry (first >>= next) := by
  intro found failed
  rcases Outcome.bind_eq_error.mp failed with first | ⟨value, done, later⟩
  · exact head found first
  · exact tail value done found later

theorem check {condition : Prop} [Decidable condition] {flaw : LoadFlaw}
    {next : Unit → Except LoadError β} (whole : parts [])
    (later : Blames parts path entry (next ())) :
    Blames parts path entry (if condition then throw ⟨flaw, path⟩ >>= next else next ()) := by
  by_cases holds : condition
  · rw [if_pos holds]
    exact (BlamesEntry.error flaw).blames whole entry
  · rw [if_neg holds]
    exact later

/-- A part of a member is a part of the entry that has the member. -/
theorem of_member {inner : Path → Prop} {value : Json} {outcome : Except LoadError α}
    (found : lookup name members = some value) (errors : Blames inner (key path name) value outcome)
    (within : ∀ part, inner part → parts (.key name :: part)) :
    Blames parts path (.obj members) outcome := by
  intro error failed
  rcases errors error failed with ⟨part, inside, lies, present⟩
  refine ⟨.key name :: part, within part inside, ?_, ?_⟩
  · rw [lies, key, List.append_assoc, List.singleton_append]
  · rw [Json.at?, found]
    exact present

end Blames

/-! ## Lists of entries -/

section Items

variable {read : List α → Path → Json → Except LoadError α} {before values : List α}
  {entries : List Json}

/-- Entries behind others are read with the values of the others at hand. -/
theorem items_append (first second : List Json) :
    Loading.items path read before (first ++ second) =
      Loading.items path read before first >>= fun values => Loading.items path read values second := by
  induction first generalizing before with
  | nil => rfl
  | cons entry rest ih =>
    rw [List.cons_append, Loading.items, Loading.items]
    cases read before (path ++ [.index before.length]) entry with
    | error error => rfl
    | ok value => exact ih

theorem length_of_items_eq_ok (loaded : Loading.items path read before entries = .ok values) :
    values.length = before.length + entries.length := by
  induction entries generalizing before with
  | nil =>
    cases loaded
    rfl
  | cons entry rest ih =>
    rcases Outcome.bind_eq_ok.mp loaded with ⟨value, _, later⟩
    rw [ih later, List.length_append, List.length_singleton, List.length_cons]
    omega

/-- Reading a list fails with the first entry that cannot be read, and what follows it
is not looked at. -/
theorem items_eq_error_iff {error : LoadError} :
    Loading.items path read before entries = .error error ↔
      ∃ earlier entry later values, entries = earlier ++ entry :: later ∧
        Loading.items path read before earlier = .ok values ∧
        read values (path ++ [.index values.length]) entry = .error error := by
  constructor
  · intro failed
    induction entries generalizing before with
    | nil => cases failed
    | cons entry rest ih =>
      rcases Outcome.bind_eq_error.mp failed with here | ⟨value, first, later⟩
      · exact ⟨[], entry, rest, before, rfl, rfl, here⟩
      · rcases ih later with ⟨earlier, blamed, after, values, rfl, loaded, here⟩
        refine ⟨entry :: earlier, blamed, after, values, rfl, ?_, here⟩
        rw [Loading.items, first]
        exact loaded
  · intro parts
    rcases parts with ⟨earlier, entry, later, values, rfl, loaded, here⟩
    rw [items_append, loaded, Outcome.ok_bind, Loading.items, here]
    rfl

/-- The parts of the items of a list. -/
inductive ItemPart (parts : Path → Prop) : Path → Prop where
  | item (place : Nat) {part : Path} (inside : parts part) : ItemPart parts (.index place :: part)

theorem blames_items {parts : Path → Prop}
    (each : ∀ before place entry, Blames parts place entry (read before place entry)) :
    Blames (ItemPart parts) path (.arr entries) (Loading.items path read [] entries) := by
  intro error failed
  rcases items_eq_error_iff.mp failed with ⟨earlier, entry, later, values, rfl, loaded, here⟩
  rcases each _ _ _ error here with ⟨part, inside, lies, present⟩
  have place := length_of_items_eq_ok loaded
  rw [List.length_nil, Nat.zero_add] at place
  refine ⟨.index values.length :: part, .item values.length inside, ?_, ?_⟩
  · rw [lies, List.append_assoc, List.singleton_append]
  · rw [Json.at?, place, List.getElem?_append_right (Nat.le_refl _), Nat.sub_self]
    exact present

end Items

/-! ## Members -/

theorem blamesEntry_text? : BlamesEntry path (Loading.text? path members name) := by
  unfold Loading.text?
  split
  · exact .ok _
  · exact .error _
  · exact .ok _
  · exact .error _

theorem blamesEntry_rawName : BlamesEntry path (Loading.rawName path members) := by
  apply blamesEntry_text?.bind
  intro text?
  cases text? with
  | none => exact .error _
  | some name => exact .ok _

theorem blamesEntry_list : BlamesEntry path (Loading.list path members name) := by
  unfold Loading.list
  split
  · exact .ok _
  · exact .ok _
  · exact .error _

theorem blamesEntry_checkIdentifier (kind : VariableKind) :
    BlamesEntry path (checkIdentifier path kind name) := by
  unfold checkIdentifier
  split
  · exact .ok _
  · exact .error _

theorem blamesEntry_isConstructor : BlamesEntry path (Loading.isConstructor path members name) := by
  unfold Loading.isConstructor
  split
  · exact .ok _
  · exact .ok _
  · exact .error _

theorem blamesEntry_type (entry : Json) : BlamesEntry path (Loading.type path entry) := by
  unfold Loading.type
  split
  · split
    · exact .ok _
    · exact .error _
  · exact .error _

theorem blamesEntry_argumentName (entry : Json) :
    BlamesEntry path (Loading.argumentName path entry) := by
  unfold Loading.argumentName
  split
  · exact .error _
  · exact (blamesEntry_checkIdentifier _).bind fun _ => .ok _
  · exact .error _

/-- An error in a member that is a list lies at one of the items of the list. -/
theorem blames_itemsOf {parts inner : Path → Prop} {entries : List Json}
    {read : List α → Path → Json → Except LoadError α}
    (found : Loading.list path members name = .ok entries)
    (each : ∀ before place entry, Blames inner place entry (read before place entry))
    (within : ∀ place part, inner part → parts (.key name :: .index place :: part)) :
    Blames parts path (.obj members) (Loading.items (key path name) read [] entries) := by
  unfold Loading.list at found
  split at found
  next =>
    cases found
    exact nofun
  next given =>
    cases found
    apply Blames.of_member given (blames_items each)
    intro part inside
    cases inside with
    | item place inside => exact within place _ inside
  next => cases found

theorem blames_type? {parts : Path → Prop} (within : parts [.key name]) :
    Blames parts path (.obj members) (Loading.type? path members name) := by
  unfold Loading.type?
  split
  · exact nofun
  next value found =>
    have typed : BlamesEntry (key path name) (some <$> Loading.type (key path name) value) :=
      (blamesEntry_type value).bind fun _ => .ok _
    apply Blames.of_member found (typed.blames EntryPart.entry value)
    intro part whole
    cases whole
    exact within

theorem blames_argumentNames (count : Nat) :
    Blames MethodPart path (.obj members) (Loading.argumentNames path members count) := by
  unfold Loading.argumentNames
  split
  · exact nofun
  · apply (blamesEntry_list.blames .entry _).bind
    intro names found
    apply Blames.check .entry
    have each : ∀ (_ : List Text) place entry,
        Blames EntryPart place entry (Loading.argumentName place entry) :=
      fun _ _ entry => (blamesEntry_argumentName entry).blames .entry entry
    apply blames_itemsOf found each
    intro place part whole
    cases whole
    exact .argumentName place

/-! ## Entries -/

theorem blames_field (entry : Json) : Blames FieldPart path entry (Loading.field path entry) := by
  cases entry with
  | obj members =>
    apply (blamesEntry_rawName.blames .entry _).bind
    intro name _
    apply (blamesEntry_text?.blames .entry _).bind
    intro alias? _
    apply ((blamesEntry_checkIdentifier _).blames .entry _).bind
    intro _ _
    exact (blames_type? .type).bind fun _ _ => nofun
  | _ => exact (BlamesEntry.error _).blames .entry _

theorem blames_method (entry : Json) : Blames MethodPart path entry (Loading.method path entry) := by
  cases entry with
  | obj members =>
    apply (blamesEntry_rawName.blames .entry _).bind
    intro name _
    apply (blamesEntry_text?.blames .entry _).bind
    intro alias? _
    apply (blamesEntry_list.blames .entry _).bind
    intro arguments found
    have each : ∀ (_ : List JavaType) place entry,
        Blames EntryPart place entry (Loading.type place entry) :=
      fun _ _ entry => (blamesEntry_type entry).blames .entry entry
    apply (blames_itemsOf found each ?_).bind
    · intro types _
      apply (blames_argumentNames _).bind
      intro names _
      apply (blames_type? .result).bind
      intro returnType? _
      exact (blamesEntry_isConstructor.blames .entry _).bind fun _ _ => nofun
    · intro place part whole
      cases whole
      exact .argument place
  | _ => exact (BlamesEntry.error _).blames .entry _

theorem blames_nextMethod (before : List JavaMethod) (entry : Json) :
    Blames MethodPart path entry (Loading.nextMethod before path entry) :=
  (blames_method entry).bind fun _ _ => .check .entry nofun

/-! ## Classes -/

def classNames (path : Path) (members : List (Text × Json)) : Except LoadError (Text × Text) := do
  let name ← rawName path members
  let aliasName := (← text? path members "alias").getD (name.afterLast '.')
  checkIdentifier path .classAlias aliasName
  return (name, aliasName)

/-- The entries that a member lists, read one after the other. -/
def listed (path : Path) (members : List (Text × Json)) (name : Text)
    (read : List α → Path → Json → Except LoadError α) : Except LoadError (List α) := do
  let entries ← list path members name
  items (key path name) read [] entries

theorem cls_obj (path : Path) (members : List (Text × Json)) :
    Loading.cls path (.obj members) = (do
      let names ← classNames path members
      let fields ← listed path members "fields" fun _ => field
      let methods ← listed path members "methods" nextMethod
      return ⟨names.1, names.2, fields, methods⟩) := by
  simp only [Loading.cls, classNames, listed, bind_assoc, pure_bind]

theorem classNames_congr (path : Path) {others : List (Text × Json)}
    (sameName : lookup "name" others = lookup "name" members)
    (sameAlias : lookup "alias" others = lookup "alias" members) :
    classNames path others = classNames path members := by
  simp only [classNames, Loading.rawName, Loading.text?, sameName, sameAlias]

theorem listed_congr (path : Path) {others : List (Text × Json)}
    (read : List α → Path → Json → Except LoadError α)
    (same : lookup name others = lookup name members) :
    listed path others name read = listed path members name read := by
  simp only [listed, Loading.list, same]

theorem blamesEntry_classNames : BlamesEntry path (classNames path members) := by
  apply blamesEntry_rawName.bind
  intro name
  apply blamesEntry_text?.bind
  intro alias?
  exact (blamesEntry_checkIdentifier _).bind fun _ => .ok _

theorem blames_listed {parts inner : Path → Prop}
    {read : List α → Path → Json → Except LoadError α} (whole : parts [])
    (each : ∀ before place entry, Blames inner place entry (read before place entry))
    (within : ∀ place part, inner part → parts (.key name :: .index place :: part)) :
    Blames parts path (.obj members) (listed path members name read) :=
  (blamesEntry_list.blames whole _).bind fun _ found => blames_itemsOf found each within

theorem blames_cls (entry : Json) : Blames ClassPart path entry (Loading.cls path entry) := by
  cases entry with
  | obj members =>
    rw [cls_obj]
    apply (blamesEntry_classNames.blames .entry _).bind
    intro names _
    apply (blames_listed .entry (fun _ _ => blames_field) fun place _ => .field place).bind
    intro fields _
    apply (blames_listed .entry (fun before _ => blames_nextMethod before)
      fun place _ => .method place).bind
    exact fun _ _ => nofun
  | _ => exact (BlamesEntry.error _).blames .entry _

theorem blames_nextClass (before : List JavaClass) (entry : Json) :
    Blames ClassPart path entry (Loading.nextClass before path entry) :=
  (blames_cls entry).bind fun _ _ => .check .entry nofun

end Loading

namespace Model

theorem ofJson_obj (members : List (Text × Json)) :
    ofJson (.obj members) = (do
      let classes ← Loading.listed [] members "classes" Loading.nextClass
      return ofClasses classes) := by
  simp only [ofJson, Loading.listed, bind_assoc]
  rfl

theorem blames_ofJson (document : Json) :
    Loading.Blames Loading.DocumentPart [] document (ofJson document) := by
  cases document with
  | obj members =>
    rw [ofJson_obj]
    apply (Loading.blames_listed .document (fun before _ => Loading.blames_nextClass before)
      fun place _ => .cls place).bind
    exact fun _ _ => nofun
  | _ => exact (Loading.BlamesEntry.error _).blames .document _

end Model

end HookScript
