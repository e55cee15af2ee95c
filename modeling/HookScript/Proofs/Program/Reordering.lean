import HookScript.Proofs.Program.Finding
import Mathlib.Data.List.Forall2

/-!
# Members among other things

The same members may be declared in another order, and other classes may be declared
along with them.  This changes neither what a selector of a member stands for, nor how
the member is described, nor its snippet, as long as no other class answers to the name
of the class.

A document in another order loads as a model in another order.  Since what selectors
find is the only element of a part of a list, it is found in any order.
-/

namespace HookScript

open Json (lookup GivesText GivesList DescribesField DescribesMethod DescribesClass)

/-! ## Documents in another order -/

namespace Json

/-- Two entries of a class that differ only in the order of the fields and of the
methods. -/
inductive ReorderedClass : Json → Json → Prop where
  | entry {members others : List (Text × Json)}
      {fields otherFields methods otherMethods : List Json}
      (fieldList : GivesList members "fields" fields)
      (otherFieldList : GivesList others "fields" otherFields)
      (fieldOrder : otherFields.Perm fields)
      (methodList : GivesList members "methods" methods)
      (otherMethodList : GivesList others "methods" otherMethods)
      (methodOrder : otherMethods.Perm methods)
      (same : ∀ name : Text, name ≠ "fields" → name ≠ "methods" →
        lookup name others = lookup name members) :
      ReorderedClass (.obj members) (.obj others)

/-- Two documents of which the second lists the classes of the first in any order, each
with its members in any order, and has other entries inserted among them. -/
inductive Rearranged (inserted : List Json) : Json → Json → Prop where
  | document {members others : List (Text × Json)} {entries reordered otherEntries : List Json}
      (classList : GivesList members "classes" entries)
      (eachClass : List.Forall₂ ReorderedClass entries reordered)
      (otherClassList : GivesList others "classes" otherEntries)
      (order : otherEntries.Perm (reordered ++ inserted)) :
      Rearranged inserted (.obj members) (.obj others)

theorem GivesList.eq {members : List (Text × Json)} {name : Text} {first second : List Json}
    (givesFirst : GivesList members name first) (givesSecond : GivesList members name second) :
    first = second := by
  have read : Loading.list [] members name = .ok first := Loading.list_eq_ok.mpr givesFirst
  rw [Loading.list_eq_ok.mpr givesSecond] at read
  exact (Except.ok.inj read).symm

theorem GivesText.congr {members others : List (Text × Json)} {name default text : Text}
    (same : lookup name others = lookup name members)
    (gives : GivesText members name default text) : GivesText others name default text := by
  cases gives with
  | given found => exact .given (same.trans found)
  | missing absent => exact .missing (same.trans absent)

end Json

/-! ## Classes in another order -/

/-- Two classes that differ only in the order of the fields and of the methods. -/
structure JavaClass.Reordered (first second : JavaClass) : Prop where
  rawName : second.rawName = first.rawName
  aliasName : second.aliasName = first.aliasName
  fields : second.fields.Perm first.fields
  methods : second.methods.Perm first.methods

theorem JavaClass.WellFormed.reordered {first second : JavaClass} (wellFormed : first.WellFormed)
    (reordered : first.Reordered second) : second.WellFormed := by
  refine ⟨?_, ?_, ?_, ?_, ?_⟩
  · rw [reordered.rawName]
    exact wellFormed.rawName
  · rw [reordered.aliasName]
    exact wellFormed.aliasName
  · intro field declared
    exact wellFormed.fields field (reordered.fields.mem_iff.mp declared)
  · intro method declared
    exact wellFormed.methods method (reordered.methods.mem_iff.mp declared)
  · exact (reordered.methods.map JavaMethod.identity).nodup_iff.mpr wellFormed.distinct

namespace Json

theorem ReorderedClass.exists_described {entry other : Json} {cls : JavaClass}
    (entries : ReorderedClass entry other) (describes : DescribesClass entry cls) :
    ∃ second, DescribesClass other second ∧ cls.Reordered second := by
  cases entries with
  | entry fieldList otherFieldList fieldOrder methodList otherMethodList methodOrder same =>
    cases describes with
    | entry rawName aliasName describedFields eachField describedMethods eachMethod =>
      rw [describedFields.eq fieldList] at eachField
      rw [describedMethods.eq methodList] at eachMethod
      rcases List.perm_comp_forall₂ fieldOrder eachField with ⟨fields, eachField, fieldOrder⟩
      rcases List.perm_comp_forall₂ methodOrder eachMethod with ⟨methods, eachMethod, methodOrder⟩
      have sameName := same "name" (by decide) (by decide)
      have sameAlias := same "alias" (by decide) (by decide)
      exact ⟨⟨cls.rawName, cls.aliasName, fields, methods⟩,
        .entry (sameName.trans rawName) (aliasName.congr sameAlias) otherFieldList eachField
          otherMethodList eachMethod, rfl, rfl, fieldOrder, methodOrder⟩

theorem exists_described_of_reordered {entries reordered : List Json} {classes : List JavaClass}
    (eachEntry : List.Forall₂ ReorderedClass entries reordered)
    (described : List.Forall₂ DescribesClass entries classes) :
    ∃ others, List.Forall₂ DescribesClass reordered others ∧
      List.Forall₂ JavaClass.Reordered classes others := by
  induction eachEntry generalizing classes with
  | nil =>
    cases described
    exact ⟨[], .nil, .nil⟩
  | cons first _ ih =>
    cases described with
    | cons describes later =>
      rcases first.exists_described describes with ⟨other, describesOther, reordered⟩
      rcases ih later with ⟨others, describedOthers, eachReordered⟩
      exact ⟨other :: others, .cons describesOther describedOthers,
        .cons reordered eachReordered⟩

end Json

section Reordered

variable {classes others : List JavaClass}
  (eachReordered : List.Forall₂ JavaClass.Reordered classes others)

include eachReordered

theorem map_rawName_of_reordered : others.map JavaClass.rawName = classes.map JavaClass.rawName := by
  induction eachReordered with
  | nil => rfl
  | cons reordered _ ih => rw [List.map_cons, List.map_cons, reordered.rawName, ih]

theorem wellFormed_of_reordered (wellFormed : ∀ cls ∈ classes, cls.WellFormed) :
    ∀ cls ∈ others, cls.WellFormed := by
  induction eachReordered with
  | nil => exact nofun
  | cons reordered _ ih =>
    rcases List.forall_mem_cons.mp wellFormed with ⟨here, later⟩
    exact List.forall_mem_cons.mpr ⟨here.reordered reordered, ih later⟩

end Reordered

namespace Model

variable {model : Model}

theorem wellFormed_ofClasses {classes : List JavaClass}
    (distinct : (classes.map JavaClass.rawName).Nodup)
    (wellFormed : ∀ cls ∈ classes, cls.WellFormed) : (ofClasses classes).WellFormed := by
  have stored := classes_ofClasses distinct
  refine ⟨?_, ?_, ?_⟩
  · rw [stored]
    exact entries_ofClasses distinct
  · rw [stored]
    exact distinct
  · rw [stored]
    exact wellFormed

/-- A rearranged document loads as a model that has the same classes in another order,
and with them the classes of the inserted entries. -/
theorem exists_rearranged {inserted : List Json} {document other : Json} {added : List JavaClass}
    (loaded : ofJson document = .ok model)
    (rearranged : Json.Rearranged inserted document other)
    (loadable : List.Forall₂ (fun entry cls => Loading.cls [] entry = .ok cls) inserted added)
    (distinct : ((model.classes ++ added).map JavaClass.rawName).Nodup) :
    ∃ second classes, ofJson other = .ok second ∧ second.classes.Perm (classes ++ added) ∧
      List.Forall₂ JavaClass.Reordered model.classes classes := by
  rcases ofJson_eq_ok.mp loaded with ⟨describes, wellFormed⟩
  have wellClasses := wellFormed.classes
  generalize model.classes = original at describes distinct wellClasses
  cases rearranged with
  | document classList eachEntry otherClassList order =>
    cases describes with
    | document describedClasses eachClass =>
      rw [describedClasses.eq classList] at eachClass
      rcases Json.exists_described_of_reordered eachEntry eachClass with
        ⟨classes, describedEach, eachReordered⟩
      have describedAdded : List.Forall₂ DescribesClass inserted added :=
        loadable.imp fun _ _ loads => (Loading.cls_eq_ok.mp loads).1
      have wellAdded : ∀ cls ∈ added, cls.WellFormed :=
        Json.forall_of_described loadable fun _ _ _ loads => (Loading.cls_eq_ok.mp loads).2
      rcases List.perm_comp_forall₂ order (List.rel_append describedEach describedAdded) with
        ⟨others, describedOthers, otherOrder⟩
      have names : (others.map JavaClass.rawName).Nodup := by
        rw [(otherOrder.map JavaClass.rawName).nodup_iff, List.map_append,
          map_rawName_of_reordered eachReordered, ← List.map_append]
        exact distinct
      have wellOthers : ∀ cls ∈ others, cls.WellFormed := by
        intro cls listed
        rcases List.mem_append.mp (otherOrder.mem_iff.mp listed) with inClasses | inAdded
        · exact wellFormed_of_reordered eachReordered wellClasses cls inClasses
        · exact wellAdded cls inAdded
      have stored := classes_ofClasses names
      have whole := wellFormed_ofClasses names wellOthers
      refine ⟨ofClasses others, classes, ofJson_eq_ok.mpr ⟨?_, whole⟩, ?_, eachReordered⟩
      · rw [stored]
        exact .document otherClassList describedOthers
      · rw [stored]
        exact otherOrder

end Model

/-! ## Finding in another order -/

section Related

variable {α : Type} {R : α → α → Prop}

theorem only?_of_forall₂ {first second : List α} (related : List.Forall₂ R first second) :
    Option.Rel R (only? first) (only? second) := by
  cases related with
  | nil => exact .none
  | cons here later =>
    cases later with
    | nil => exact .some here
    | cons _ _ => exact .none

theorem or_of_rel {first second firstElse secondElse : Option α}
    (related : Option.Rel R first second) (otherwise : Option.Rel R firstElse secondElse) :
    Option.Rel R (first.or firstElse) (second.or secondElse) := by
  cases related with
  | none => exact otherwise
  | some here => exact .some here

end Related

namespace JavaClass

variable {name : Text}

theorem find?_of_perm {first second : List JavaClass} (perm : first.Perm second) :
    find? name first = find? name second := by
  rw [find?, find?, only?_of_perm (perm.filter _), only?_of_perm (perm.filter _)]

/-- Classes that do not answer to a name have no say in which class does. -/
theorem find?_append {classes added : List JavaClass}
    (apart : ∀ cls ∈ added, cls.rawName ≠ name ∧ cls.aliasName ≠ name) :
    find? name (classes ++ added) = find? name classes := by
  have noRawName : (added.filter fun cls => cls.rawName = name) = [] :=
    List.filter_eq_nil_iff.mpr fun cls listed => mt of_decide_eq_true (apart cls listed).1
  have noAlias : (added.filter fun cls => cls.aliasName = name) = [] :=
    List.filter_eq_nil_iff.mpr fun cls listed => mt of_decide_eq_true (apart cls listed).2
  rw [find?, find?, List.filter_append, List.filter_append, noRawName, noAlias, List.append_nil,
    List.append_nil]

theorem find?_of_reordered (name : Text) {classes others : List JavaClass}
    (eachReordered : List.Forall₂ Reordered classes others) :
    Option.Rel Reordered (find? name classes) (find? name others) := by
  apply or_of_rel
  · apply only?_of_forall₂
    apply List.rel_filter _ eachReordered
    intro first second reordered
    simp only [reordered.rawName]
  · apply only?_of_forall₂
    apply List.rel_filter _ eachReordered
    intro first second reordered
    simp only [reordered.aliasName]

namespace Reordered

variable {first second : JavaClass}

theorem method?_eq (reordered : first.Reordered second) (selector : Text) :
    second.method? selector = first.method? selector := by
  have byIdentity := reordered.methods.filter fun method => method.identity = selector
  rw [method?, method?, only?_of_perm byIdentity, only?_of_perm (named_perm reordered.methods)]

theorem field?_eq (reordered : first.Reordered second) (selector : Text) :
    second.field? selector = first.field? selector :=
  only?_of_perm (named_perm reordered.fields)

end Reordered

end JavaClass

/-! ## Descriptions and snippets -/

/-- Two selections that have a description and a snippet, and have both in common. -/
structure Selection.Alike (first second : Selection) : Prop where
  described : ∃ description, first.describe = .ok description ∧ second.describe = .ok description
  generated : ∃ text, Snippet.generate first = .ok text ∧ Snippet.generate second = .ok text

namespace JavaClass.Reordered

variable {first second : JavaClass}

theorem handle_eq (reordered : first.Reordered second) :
    second.toOwner.handle = first.toOwner.handle := by
  rw [Owner.handle, Owner.handle, toOwner, toOwner, reordered.rawName, reordered.aliasName]

/-- Whether a method is overloaded depends on which methods there are, but not on their
order. -/
theorem hookBlock_eq (reordered : first.Reordered second) (placement : Placement)
    (method : JavaMethod) : second.hookBlock placement method = first.hookBlock placement method := by
  have overloads : second.overloads method = first.overloads method := reordered.methods.any_eq
  have hook : second.hook method = first.hook method := by
    simp only [hook, overloads, Hook.ofMethod, toOwner, reordered.rawName, reordered.aliasName]
  rw [hookBlock, hookBlock, hook, reordered.handle_eq]

theorem probeBlock_eq (reordered : first.Reordered second) (placement : Placement)
    (field : JavaField) : second.probeBlock placement field = first.probeBlock placement field := by
  have shadows : second.shadows field = first.shadows field := reordered.methods.any_eq
  have probe : second.probe field = first.probe field := by
    simp only [probe, shadows, Probe.ofField, toOwner, reordered.rawName, reordered.aliasName]
  rw [probeBlock, probeBlock, probe, reordered.handle_eq]

theorem alike_method (reordered : first.Reordered second) (wellFormed : first.WellFormed)
    {method : JavaMethod} (declared : method ∈ first.methods) :
    Selection.Alike (.method (some (first.member method))) (.method (some (second.member method))) := by
  have described : ∀ cls : JavaClass, (Selection.method (some (cls.member method))).describe =
      .ok (.obj [("kind", .str "method"), ("class", .str cls.rawName),
        ("method", .str method.identity)]) :=
    fun _ => if_pos (wellFormed.typed method declared).hasIdentity
  have declaredSecond := reordered.methods.mem_iff.mpr declared
  have generated := generate_method (wellFormed.reordered reordered).typed declaredSecond
  rw [reordered.hookBlock_eq] at generated
  refine ⟨⟨_, described first, ?_⟩, ⟨_, generate_method wellFormed.typed declared, generated⟩⟩
  rw [described, reordered.rawName]

theorem alike_field (reordered : first.Reordered second) (field : JavaField) :
    Selection.Alike (.field (some (first.member field))) (.field (some (second.member field))) := by
  have described : ∀ cls : JavaClass, (Selection.field (some (cls.member field))).describe =
      .ok (.obj [("kind", .str "field"), ("class", .str cls.rawName),
        ("field", .str field.rawName)]) := fun _ => rfl
  have generated : Snippet.generate (.field (some (second.member field))) =
      .ok (second.probeBlock .standalone field) := generate_field field
  rw [reordered.probeBlock_eq] at generated
  refine ⟨⟨_, described first, ?_⟩, ⟨_, generate_field field, generated⟩⟩
  rw [described, reordered.rawName]

theorem alike_member? (reordered : first.Reordered second) (wellFormed : first.WellFormed)
    (selectors : Selectors) :
    Option.Rel Selection.Alike (first.member? selectors) (second.member? selectors) := by
  unfold member?
  split
  next selector _ _ =>
    rw [reordered.method?_eq]
    cases found : first.method? selector with
    | none => exact .none
    | some method => exact .some (reordered.alike_method wellFormed (mem_of_method? found))
  next selector _ _ =>
    rw [reordered.field?_eq]
    cases first.field? selector with
    | none => exact .none
    | some field => exact .some (reordered.alike_field field)
  next => exact .none

end JavaClass.Reordered

/-! ## Main statement -/

namespace Model

variable {model : Model}

/-- Members are found, described and written the same in a document that lists classes
and members in another order, and other classes along with them.  Such a document loads
if the other classes can be loaded and have raw names of their own.  Selectors of a
member of a class then select something in both models or in neither, and what they
select has the same description and the same snippet, unless one of the other classes
answers to the name of the class. -/
theorem members_independent_of_order {inserted : List Json} {document other : Json}
    {added : List JavaClass} {name : Text} (loaded : ofJson document = .ok model)
    (rearranged : Json.Rearranged inserted document other)
    (loadable : List.Forall₂ (fun entry cls => Loading.cls [] entry = .ok cls) inserted added)
    (distinct : ((model.classes ++ added).map JavaClass.rawName).Nodup)
    (apart : ∀ cls ∈ added, cls.rawName ≠ name ∧ cls.aliasName ≠ name) :
    ∃ second, ofJson other = .ok second ∧ ∀ selectors : Selectors, selectors.className = name →
      selectors.method?.isSome = true ∨ selectors.field?.isSome = true →
        Option.Rel Selection.Alike (model.resolve selectors).toOption
          (second.resolve selectors).toOption := by
  rcases exists_rearranged loaded rearranged loadable distinct with
    ⟨second, classes, loadedSecond, order, eachReordered⟩
  refine ⟨second, loadedSecond, ?_⟩
  rintro selectors rfl ofMember
  have wellFormed := (ofJson_eq_ok.mp loaded).2
  have wellSecond := (ofJson_eq_ok.mp loadedSecond).2
  have sameClass := JavaClass.find?_of_reordered selectors.className eachReordered
  -- the order of the classes does not count, the added ones do not answer to the name, and
  -- what is left are the classes of the model, each with its members in another order
  rw [wellFormed.toOption_resolve ofMember, wellSecond.toOption_resolve ofMember,
    JavaClass.find?_of_perm order, JavaClass.find?_append apart]
  have wellFound : ∀ cls, JavaClass.find? selectors.className model.classes = some cls →
      cls.WellFormed := fun cls found => wellFormed.classes cls (mem_of_find? found)
  generalize JavaClass.find? selectors.className model.classes = first at sameClass wellFound ⊢
  generalize JavaClass.find? selectors.className classes = other at sameClass ⊢
  cases sameClass with
  | none => exact .none
  | some reordered => exact reordered.alike_member? (wellFound _ rfl) selectors

/-- The members of a class with a name and an alias. -/
def aliasedMembers (fields methods : List Json) : List (Text × Json) :=
  ("name", .str "A") :: ("alias", .str "K") :: [("fields", .arr fields), ("methods", .arr methods)]

theorem reordered_aliasedMembers {fields otherFields methods otherMethods : List Json}
    (fieldOrder : otherFields.Perm fields) (methodOrder : otherMethods.Perm methods) :
    Json.ReorderedClass (.obj (aliasedMembers fields methods))
      (.obj (aliasedMembers otherFields otherMethods)) := by
  refine .entry (.given rfl) (.given rfl) fieldOrder (.given rfl) (.given rfl) methodOrder ?_
  intro name noFields noMethods
  simp only [aliasedMembers, lookup, if_neg (Ne.symm noFields), if_neg (Ne.symm noMethods)]

/-- An entry with nothing but a name. -/
def namedEntry (name : Text) : Json := .obj [("name", .str name)]

def overloadEntry (arguments : List Text) : Json :=
  .obj [("name", .str "f"), ("args", .texts arguments)]

/-- A document with fields and overloads of a method in a class with an alias. -/
def overloadsDocument : Json :=
  .obj [("classes", .arr [
    .obj (aliasedMembers [namedEntry "x", namedEntry "y"] [overloadEntry [], overloadEntry ["int"]]),
    namedEntry "B"])]

/-- The document backwards, with another class in front. -/
def backwardsDocument : Json :=
  .obj [("classes", .arr [namedEntry "C", namedEntry "B",
    .obj (aliasedMembers [namedEntry "y", namedEntry "x"] [overloadEntry ["int"], overloadEntry []])])]

theorem rearranged_backwardsDocument :
    Json.Rearranged [namedEntry "C"] overloadsDocument backwardsDocument := by
  have unchanged : Json.ReorderedClass (namedEntry "B") (namedEntry "B") :=
    .entry (.missing rfl) (.missing rfl) (.refl _) (.missing rfl) (.missing rfl) (.refl _)
      fun _ _ _ => rfl
  have reordered := reordered_aliasedMembers (.swap (namedEntry "x") (namedEntry "y") [])
    (.swap (overloadEntry []) (overloadEntry ["int"]) [])
  exact .document (.given rfl) (.cons reordered (.cons unchanged .nil)) (.given rfl)
    (List.reverse_perm [_, namedEntry "B", namedEntry "C"])

theorem members_independent_of_order_overloads :
    ∃ model second, ofJson overloadsDocument = .ok model ∧ ofJson backwardsDocument = .ok second ∧
      (model.resolve ⟨"K", some "f(I)V", none⟩).toOption.isSome = true ∧
      Option.Rel Selection.Alike (model.resolve ⟨"K", some "f(I)V", none⟩).toOption
        (second.resolve ⟨"K", some "f(I)V", none⟩).toOption := by
  have loaded : ofJson overloadsDocument = .ok _ := rfl
  have loadable : List.Forall₂ (fun entry cls => Loading.cls [] entry = .ok cls) [namedEntry "C"]
      [⟨"C", "C", [], []⟩] := .cons rfl .nil
  have apart : ∀ cls ∈ [(⟨"C", "C", [], []⟩ : JavaClass)], cls.rawName ≠ "K" ∧ cls.aliasName ≠ "K" :=
    List.forall_mem_singleton.mpr (by decide)
  rcases members_independent_of_order loaded rearranged_backwardsDocument loadable (by decide) apart
    with ⟨second, loadedSecond, answers⟩
  exact ⟨_, second, loaded, loadedSecond, rfl, answers ⟨"K", some "f(I)V", none⟩ rfl (Or.inl rfl)⟩

end Model

end HookScript
