import HookScript.Proofs.Program.ErrorPath

/-!
# The first fault of a document

A document is read entry by entry, and reading ends with the first fault.  So the
path of an error says more than where the fault is: the classes in front of it load,
and whatever stands behind the entry with the fault has no say in the error.  What
stands behind an entry depends on the order in which the members of an entry are
read: the fields of a class come before its methods.
-/

namespace HookScript

namespace Json

/-- The members that list entries, each with the members read before it. -/
inductive EntryList : Text → List Text → Prop where
  | classes : EntryList "classes" []
  | fields : EntryList "fields" ["name", "alias"]
  | methods : EntryList "methods" ["name", "alias", "fields"]

theorem EntryList.name_mem {name : Text} {before : List Text} (lists : EntryList name before) :
    name ∈ ["classes", "fields", "methods"].map Text.ofString := by
  cases lists <;> decide

/-- Two values that agree in what is read up to an entry at some place in them, and in
that entry.  What is read later is free. -/
inductive SameUpTo : Path → Json → Json → Prop where
  | here (entry : Json) : SameUpTo [] entry entry
  | inside {name : Text} {before : List Text} {rest : Path} {members others : List (Text × Json)}
      {earlier later replaced : List Json} {entry other : Json} (lists : EntryList name before)
      (found : lookup name members = some (.arr (earlier ++ entry :: later)))
      (foundOther : lookup name others = some (.arr (earlier ++ other :: replaced)))
      (agree : ∀ key ∈ before, lookup key others = lookup key members)
      (same : SameUpTo rest entry other) :
      SameUpTo (.key name :: .index earlier.length :: rest) (.obj members) (.obj others)

/-- A document with nothing but the first of its classes. -/
def firstClasses (count : Nat) : Json → Json
  | .obj members =>
    match lookup "classes" members with
    | some (.arr entries) =>
      .obj (members ++ [(Text.ofString "classes", .arr (entries.take count))])
    | _ => .obj members
  | document => document

end Json

open Json (Path lookup EntryList SameUpTo)

namespace Loading

variable {α : Type} {path rest : Path} {members others : List (Text × Json)} {name : Text}

theorem list_of_lookup {entries : List Json} (found : lookup name members = some (.arr entries)) :
    Loading.list path members name = .ok entries := by
  rw [Loading.list, found]

theorem not_inside_of_path_eq {error : LoadError} {step : Json.Step} (lies : error.path = path) :
    ¬path ++ step :: rest <+: error.path := by
  intro within
  have length := within.length_le
  rw [lies, List.length_append, List.length_cons] at length
  omega

/-- A loader whose errors do not depend on what is read after the entry that they
blame. -/
def Settles (read : Path → Json → Except LoadError α) : Prop :=
  ∀ path entry error, read path entry = .error error →
    ∀ place other, path ++ place <+: error.path → SameUpTo place entry other →
      read path other = .error error

/-- A loader that blames no part of an entry that lists others. -/
theorem settles_of_parts {parts : Path → Prop} {read : Path → Json → Except LoadError α}
    (blames : ∀ path entry, Blames parts path entry (read path entry))
    (flat : ∀ name tail, parts (.key name :: tail) → ∀ before, ¬EntryList name before) :
    Settles read := by
  intro path entry error failed place other within same
  cases same with
  | here => exact failed
  | @inside name before _ _ _ _ _ _ _ _ lists =>
    rcases blames path _ error failed with ⟨part, inside, lies, _⟩
    rw [lies, List.prefix_append_right_inj] at within
    rcases within with ⟨tail, rfl⟩
    exact absurd lists (flat name _ inside before)

theorem settles_field : Settles field := by
  apply settles_of_parts fun _ => blames_field
  intro name tail inside before lists
  have listName := lists.name_mem
  cases inside
  exact absurd listName (by decide)

theorem settles_nextMethod (before : List JavaMethod) : Settles (nextMethod before) := by
  apply settles_of_parts fun _ => blames_nextMethod before
  intro name tail inside before lists
  have listName := lists.name_mem
  cases inside with
  | argument => exact absurd listName (by decide)
  | argumentName => exact absurd listName (by decide)
  | result => exact absurd listName (by decide)

/-! ## Members that list entries -/

section Listed

variable {parts : Path → Prop} {read : List α → Path → Json → Except LoadError α}
  {error : LoadError} {step : Json.Step}

/-- A member that cannot be read as a list of entries is no list, or one of its entries
is the first that cannot be read. -/
theorem listed_eq_error (failed : listed path members name read = .error error) :
    (∃ value, lookup name members = some value ∧ (∀ entries, value ≠ .arr entries) ∧
        error.path = path) ∨
      ∃ earlier entry later values, lookup name members = some (.arr (earlier ++ entry :: later)) ∧
        Loading.items (key path name) read [] earlier = .ok values ∧
        values.length = earlier.length ∧
        read values (key path name ++ [.index values.length]) entry = .error error := by
  rcases Outcome.bind_eq_error.mp failed with noList | ⟨entries, isList, inItems⟩
  · unfold Loading.list at noList
    split at noList
    next => cases noList
    next => cases noList
    next value other found =>
      cases noList
      exact Or.inl ⟨value, found, other, rfl⟩
  · rcases items_eq_error_iff.mp inItems with ⟨earlier, entry, later, values, rfl, loaded, here⟩
    have count := length_of_items_eq_ok loaded
    rw [List.length_nil, Nat.zero_add] at count
    unfold Loading.list at isList
    split at isList
    next =>
      have nonempty : earlier ++ entry :: later ≠ [] := List.append_ne_nil_of_right_ne_nil _ nofun
      exact absurd (Except.ok.inj isList).symm nonempty
    next items found =>
      cases isList
      exact Or.inr ⟨earlier, entry, later, values, found, loaded, count, here⟩
    next => cases isList

theorem name_eq_of_listed_eq_error {other : Text}
    (blames : ∀ before place entry, Blames parts place entry (read before place entry))
    (failed : listed path members name read = .error error)
    (within : path ++ .key other :: step :: rest <+: error.path) : other = name := by
  have places : Blames (fun part => ∀ key tail, part = .key key :: tail → key = name) path
      (.obj members) (listed path members name read) := by
    apply blames_listed (fun _ _ => nofun) blames
    intro place part _ key tail same
    cases same
    rfl
  rcases places error failed with ⟨part, names, lies, _⟩
  rw [lies, List.prefix_append_right_inj] at within
  rcases within with ⟨tail, whole⟩
  exact names other (step :: (rest ++ tail)) whole.symm

/-- An entry that differs from a faulty one only in what is read behind the fault is
refused for the same fault, whatever follows it in the list. -/
theorem listed_eq_error_of_sameUpTo {earlier later replaced : List Json} {entry other : Json}
    (blames : ∀ before place entry, Blames parts place entry (read before place entry))
    (settles : ∀ before, Settles (read before))
    (failed : listed path members name read = .error error)
    (within : path ++ .key name :: .index earlier.length :: rest <+: error.path)
    (found : lookup name members = some (.arr (earlier ++ entry :: later)))
    (foundOther : lookup name others = some (.arr (earlier ++ other :: replaced)))
    (same : SameUpTo rest entry other) : listed path others name read = .error error := by
  rcases listed_eq_error failed with ⟨_, _, _, atEntry⟩ | parts
  · exact absurd within (not_inside_of_path_eq atEntry)
  rcases parts with ⟨front, blamed, back, values, split, loaded, count, here⟩
  rcases blames values _ blamed error here with ⟨part, inside, lies, present⟩
  have places : path ++ .key name :: .index earlier.length :: rest <+:
      path ++ .key name :: .index values.length :: part := by
    rw [lies, key, List.append_assoc, List.append_assoc] at within
    exact within
  rw [List.prefix_append_right_inj, List.cons_prefix_cons, List.cons_prefix_cons] at places
  rcases places with ⟨_, place, inner⟩
  rw [found, Option.some.injEq, Json.arr.injEq] at split
  rcases List.append_inj split ((Json.Step.index.inj place).trans count) with ⟨rfl, behind⟩
  cases behind
  have within : (key path name ++ [.index values.length]) ++ rest <+: error.path := by
    rw [lies, List.prefix_append_right_inj]
    exact inner
  have again := settles values _ entry error here rest other within same
  rw [listed, list_of_lookup foundOther, Outcome.ok_bind]
  exact items_eq_error_iff.mpr ⟨earlier, other, replaced, values, rfl, loaded, again⟩

end Listed

/-! ## Classes -/

theorem settles_cls : Settles cls := by
  intro path entry error failed place other within same
  cases same with
  | here => exact failed
  | @inside name before rest members others earlier later replaced entry other lists found foundOther
      agree same =>
    rw [cls_obj] at failed ⊢
    rcases Outcome.bind_eq_error.mp failed with atClass | ⟨names, named, failed⟩
    · exact absurd within (not_inside_of_path_eq (blamesEntry_classNames error atClass))
    rcases Outcome.bind_eq_error.mp failed with inFields | ⟨fields, fieldsRead, failed⟩
    · have isFields := name_eq_of_listed_eq_error (fun _ _ => blames_field) inFields within
      cases lists with
      | fields =>
        have sameNames := classNames_congr path (agree "name" (by decide)) (agree "alias" (by decide))
        have again := listed_eq_error_of_sameUpTo (fun _ _ => blames_field) (fun _ => settles_field)
          inFields within found foundOther same
        rw [sameNames, named, Outcome.ok_bind, again]
        rfl
      | classes => exact absurd isFields (by decide)
      | methods => exact absurd isFields (by decide)
    rcases Outcome.bind_eq_error.mp failed with inMethods | ⟨methods, _, impossible⟩
    · have isMethods := name_eq_of_listed_eq_error (fun before _ => blames_nextMethod before)
        inMethods within
      cases lists with
      | methods =>
        have sameNames := classNames_congr path (agree "name" (by decide)) (agree "alias" (by decide))
        have sameFields := listed_congr path (fun _ => field) (agree "fields" (by decide))
        have again := listed_eq_error_of_sameUpTo (fun before _ => blames_nextMethod before)
          settles_nextMethod inMethods within found foundOther same
        rw [sameNames, named, Outcome.ok_bind, sameFields, fieldsRead, Outcome.ok_bind, again]
        rfl
      | classes => exact absurd isMethods (by decide)
      | fields => exact absurd isMethods (by decide)
    · cases impossible

theorem settles_nextClass (before : List JavaClass) : Settles (nextClass before) := by
  intro path entry error failed place other within same
  rcases Outcome.bind_eq_error.mp failed with inClass | ⟨cls, loaded, checked⟩
  · have again := settles_cls path entry error inClass place other within same
    rw [Loading.nextClass, again]
    rfl
  · -- only the class as a whole can be a duplicate
    have atClass : BlamesEntry path (if before.any fun other => other.rawName = cls.rawName then
        throw ⟨.duplicateClass cls.rawName, path⟩ else pure cls : Except LoadError JavaClass) := by
      split
      · exact .error _
      · exact .ok _
    cases same with
    | here => exact failed
    | inside => exact absurd within (not_inside_of_path_eq (atClass error checked))

end Loading

namespace Model

open Loading

variable {document : Json} {error : LoadError}

theorem settles_ofJson : ∀ place other, place <+: error.path → SameUpTo place document other →
    ofJson document = .error error → ofJson other = .error error := by
  intro place other within same failed
  cases same with
  | here => exact failed
  | inside lists found foundOther _ same =>
    rw [ofJson_obj] at failed ⊢
    rcases Outcome.bind_eq_error.mp failed with inClasses | ⟨_, _, impossible⟩
    · have isClasses := name_eq_of_listed_eq_error (fun before _ => blames_nextClass before)
        inClasses within
      rw [isClasses] at within found foundOther
      have again := listed_eq_error_of_sameUpTo (fun before _ => blames_nextClass before)
        settles_nextClass inClasses within found foundOther same
      rw [again]
      rfl
    · cases impossible

/-- An error that blames no class blames the document for not listing any. -/
theorem noList_of_path_eq_nil {members : List (Text × Json)}
    (failed : ofJson (.obj members) = .error error) (whole : error.path = []) :
    ∃ value, lookup "classes" members = some value ∧ ∀ entries, value ≠ .arr entries := by
  rw [ofJson_obj] at failed
  rcases Outcome.bind_eq_error.mp failed with inClasses | ⟨_, _, impossible⟩
  · rcases listed_eq_error inClasses with ⟨value, found, noList, _⟩ | parts
    · exact ⟨value, found, noList⟩
    · rcases parts with ⟨earlier, entry, later, values, _, _, _, here⟩
      rcases blames_nextClass values entry error here with ⟨part, _, lies, _⟩
      rw [whole] at lies
      cases lies
  · cases impossible

/-- The classes in front of the one that an error blames load on their own. -/
theorem exists_firstClasses {place : Nat} {rest : Path} (failed : ofJson document = .error error)
    (blamed : error.path = .key "classes" :: .index place :: rest) :
    ∃ model, ofJson (document.firstClasses place) = .ok model := by
  cases document with
  | obj members =>
    rw [ofJson_obj] at failed
    rcases Outcome.bind_eq_error.mp failed with inClasses | ⟨_, _, impossible⟩
    · rcases listed_eq_error inClasses with ⟨_, _, _, atDocument⟩ | parts
      · rw [atDocument] at blamed
        cases blamed
      · rcases parts with ⟨earlier, entry, later, values, found, loaded, count, here⟩
        rcases blames_nextClass values entry error here with ⟨part, _, lies, _⟩
        rw [blamed, count] at lies
        have here := Json.Step.index.inj (List.cons.inj (List.cons.inj lies).2).1
        have last : lookup "classes" (members ++ [(Text.ofString "classes", Json.arr earlier)]) =
            some (.arr earlier) := by
          rw [Json.lookup_append]
          rfl
        refine ⟨ofClasses values, ?_⟩
        rw [Json.firstClasses, found, here]
        dsimp only
        rw [List.take_left' rfl, ofJson_obj, listed, list_of_lookup last, Outcome.ok_bind]
        rw [loaded]
        rfl
    · cases impossible
  | _ =>
    cases failed
    cases blamed

/-- The error of a document blames a part of it that is there, the document itself only
if it does not list classes.  If it blames a class or a part of one, the classes in front
of it load on their own.  And the error is that of every document that agrees with it up
to the entry that is blamed, or up to an entry that has the blamed part in it. -/
theorem error_names_first_fault (failed : ofJson document = .error error) :
    DocumentPart error.path ∧ (document.at? error.path).isSome = true ∧
      (error.path = [] → ∀ members, document = .obj members →
        ∃ value, lookup "classes" members = some value ∧ ∀ entries, value ≠ .arr entries) ∧
      (∀ place rest, error.path = .key "classes" :: .index place :: rest →
        ∃ model, ofJson (document.firstClasses place) = .ok model) ∧
      ∀ place other, place <+: error.path → SameUpTo place document other →
        ofJson other = .error error := by
  rcases blames_ofJson document error failed with ⟨part, inside, lies, present⟩
  rw [List.nil_append] at lies
  subst lies
  refine ⟨inside, present, ?_, fun _ _ => exists_firstClasses failed, ?_⟩
  · rintro whole members rfl
    exact noList_of_path_eq_nil failed whole
  · intro place other within same
    exact settles_ofJson place other within same failed

/-- The members of a class with a method that has an argument without a type, in front
of other methods. -/
def faultyMembers (laterMethods : List Json) : List (Text × Json) :=
  [("name", .str "B"), ("methods", .arr ([.obj [("name", .str "f")]] ++
    .obj [("name", .str "g"), ("args", .arr [.str "int", .null])] :: laterMethods))]

/-- The members of a document with the class behind a sound one and in front of other
classes. -/
def faultyClasses (laterMethods laterClasses : List Json) : List (Text × Json) :=
  [("classes", .arr ([.obj [("name", .str "A")]] ++ .obj (faultyMembers laterMethods) ::
    laterClasses))]

theorem error_names_first_fault_argument :
    ∃ error, ofJson (.obj (faultyClasses [] [])) = .error error ∧
      error.path.render = Text.ofString "classes[1].methods[1].args[1]" ∧
      (∃ model, ofJson (Json.firstClasses 1 (.obj (faultyClasses [] []))) = .ok model) ∧
      ofJson (.obj (faultyClasses [.null] [.null])) = .error error := by
  have failed : ofJson (.obj (faultyClasses [] [])) = .error ⟨.typeNotAString, [.key "classes",
    .index 1, .key "methods", .index 1, .key "args", .index 1]⟩ := rfl
  have methods : ∀ later, lookup "methods" (faultyMembers later) = some (.arr
    ([.obj [("name", .str "f")]] ++
      .obj [("name", .str "g"), ("args", .arr [.str "int", .null])] :: later)) := fun _ => rfl
  have classes : ∀ later behind, lookup "classes" (faultyClasses later behind) = some (.arr
    ([.obj [("name", .str "A")]] ++ .obj (faultyMembers later) :: behind)) := fun _ _ => rfl
  have agree : ∀ key ∈ ["name", "alias", "fields"].map Text.ofString,
      lookup key (faultyMembers [.null]) = lookup key (faultyMembers []) :=
    List.forall_mem_cons.mpr ⟨rfl, List.forall_mem_cons.mpr ⟨rfl,
      List.forall_mem_singleton.mpr rfl⟩⟩
  have inClass := SameUpTo.inside .methods (methods []) (methods [.null]) agree (.here _)
  have inDocument := SameUpTo.inside .classes (classes [] []) (classes [.null] [.null]) nofun inClass
  rcases error_names_first_fault failed with ⟨_, _, _, cut, settled⟩
  exact ⟨_, failed, rfl, cut 1 _ rfl, settled _ _ ⟨_, rfl⟩ inDocument⟩

end Model

end HookScript
