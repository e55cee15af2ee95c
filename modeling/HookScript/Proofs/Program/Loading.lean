import HookScript.Proofs.Outcome
import HookScript.Proofs.Program.Entry

/-!
# What loading accepts

Each loader accepts exactly the entries that describe a well-formed declaration,
and gives the declaration that they describe.  The statements are equivalences,
one for each loader, so nothing that a document may say is accepted beyond that,
and nothing is refused.
-/

namespace HookScript

open Outcome Json

namespace Loading

variable {path : Path} {members : List (Text × Json)} {name : Text}

/-! ## Members -/

theorem text?_eq_ok {text? : Option Text} : Loading.text? path members name = .ok text? ↔
    (lookup name members = none ∧ text? = none) ∨
      ∃ text, lookup name members = some (.str text) ∧ text ≠ [] ∧ text? = some text := by
  unfold Loading.text?
  split
  next absent =>
    simp only [Except.ok.injEq, absent, true_and, reduceCtorEq, false_and, exists_false, or_false]
    exact eq_comm
  next found =>
    simp only [reduceCtorEq, found, false_and, Option.some.injEq, Json.str.injEq, false_or,
      false_iff, not_exists, not_and]
    intro text same nonempty
    exact (nonempty same.symm).elim
  next text nonempty found =>
    simp only [Except.ok.injEq, found, reduceCtorEq, false_and, Option.some.injEq, Json.str.injEq,
      false_or]
    constructor
    · rintro rfl
      exact ⟨text, rfl, fun empty => nonempty empty, rfl⟩
    · intro parts
      rcases parts with ⟨same, rfl, _, rfl⟩
      rfl
  next other noEmpty noText found =>
    simp only [reduceCtorEq, found, false_and, Option.some.injEq, false_or, false_iff, not_exists,
      not_and]
    intro text same
    exact (noText text same).elim

theorem rawName_eq_ok {rawName : Text} : Loading.rawName path members = .ok rawName ↔
    lookup "name" members = some (.str rawName) ∧ rawName ≠ [] := by
  unfold Loading.rawName
  rw [bind_eq_ok]
  constructor
  · intro parts
    rcases parts with ⟨text?, read, chosen⟩
    rcases text?_eq_ok.mp read with ⟨_, rfl⟩ | ⟨text, found, nonempty, rfl⟩
    · cases chosen
    · cases chosen
      exact ⟨found, nonempty⟩
  · intro parts
    rcases parts with ⟨found, nonempty⟩
    exact ⟨some rawName, text?_eq_ok.mpr (Or.inr ⟨rawName, found, nonempty, rfl⟩), rfl⟩

/-- A text that may be missing is what the entry gives, as long as it is not
empty. -/
theorem exists_text?_getD {default text : Text} (nonempty : text ≠ []) :
    (∃ text?, Loading.text? path members name = .ok text? ∧ text?.getD default = text) ↔
      GivesText members name default text := by
  constructor
  · intro parts
    rcases parts with ⟨text?, read, rfl⟩
    rcases text?_eq_ok.mp read with ⟨absent, rfl⟩ | ⟨text, found, _, rfl⟩
    · exact .missing absent
    · exact .given found
  · intro gives
    cases gives with
    | given found => exact ⟨some text, text?_eq_ok.mpr (Or.inr ⟨text, found, nonempty, rfl⟩), rfl⟩
    | missing absent => exact ⟨none, text?_eq_ok.mpr (Or.inl ⟨absent, rfl⟩), rfl⟩

theorem getD_ne_nil {default : Text} {text? : Option Text} (nonempty : default ≠ [])
    (read : Loading.text? path members name = .ok text?) : text?.getD default ≠ [] := by
  rcases text?_eq_ok.mp read with ⟨_, rfl⟩ | ⟨text, _, given, rfl⟩
  · exact nonempty
  · exact given

theorem list_eq_ok {items : List Json} :
    Loading.list path members name = .ok items ↔ GivesList members name items := by
  unfold Loading.list
  constructor
  · intro read
    split at read
    next absent =>
      cases read
      exact .missing absent
    next found =>
      cases read
      exact .given found
    next => cases read
  · intro gives
    cases gives with
    | given found => rw [found]
    | missing absent => rw [absent]

theorem type_eq_ok {entry : Json} {type : JavaType} :
    Loading.type path entry = .ok type ↔ GivesType entry type := by
  unfold Loading.type
  constructor
  · intro loaded
    split at loaded
    next text =>
      cases read : JavaType.parse text with
      | ok same =>
        rw [read] at loaded
        cases loaded
        exact .text read
      | error error =>
        rw [read] at loaded
        cases loaded
    next => cases loaded
  · intro gives
    cases gives with
    | text read =>
      simp only [read]

theorem type?_eq_ok {type? : Option JavaType} :
    Loading.type? path members name = .ok type? ↔ GivesType? members name type? := by
  unfold Loading.type?
  cases found : lookup name members with
  | none =>
    constructor
    · intro loaded
      cases loaded
      exact .missing found
    · intro gives
      cases gives with
      | given present => cases found.symm.trans present
      | missing => rfl
  | some entry =>
    change (some <$> Loading.type (key path name) entry) = _ ↔ _
    rw [map_eq_ok]
    constructor
    · intro parts
      rcases parts with ⟨type, typed, rfl⟩
      exact .given found (type_eq_ok.mp typed)
    · intro gives
      cases gives with
      | missing absent => cases found.symm.trans absent
      | @given _ type present typed =>
        cases found.symm.trans present
        exact ⟨type, type_eq_ok.mpr typed, rfl⟩

theorem wellFormed_of_givesType {entry : Json} {type : JavaType} (gives : GivesType entry type) :
    type.WellFormed := by
  cases gives with
  | text read => exact JavaType.wellFormed_of_parse read

theorem wellFormed_of_givesType? {type? : Option JavaType} (gives : GivesType? members name type?) :
    ∀ type ∈ type?, type.WellFormed := by
  cases gives with
  | given _ typed =>
    intro type same
    cases same
    exact wellFormed_of_givesType typed
  | missing => exact nofun

theorem checkIdentifier_eq_ok {kind : VariableKind} {done : Unit} :
    checkIdentifier path kind name = .ok done ↔ Script.isIdentifier name = true := by
  unfold checkIdentifier
  by_cases identifier : Script.isIdentifier name = true
  · rw [if_pos identifier]
    exact ⟨fun _ => identifier, fun _ => rfl⟩
  · rw [if_neg identifier]
    exact ⟨nofun, fun holds => (identifier holds).elim⟩

/-! ## Lists of entries -/

section Items

variable {α β : Type} {read : List α → Path → Json → Except LoadError α}
  {describes : Json → α → Prop}

/-- Values that may be added one after the other to those before them. -/
def Admits (admissible : List α → α → Prop) : List α → List α → Prop
  | _, [] => True
  | before, value :: rest => admissible before value ∧ Admits admissible (before ++ [value]) rest

theorem admits_forall {accepted : α → Prop} {before values : List α} :
    Admits (fun _ value => accepted value) before values ↔ ∀ value ∈ values, accepted value := by
  induction values generalizing before with
  | nil => exact ⟨fun _ => nofun, fun _ => trivial⟩
  | cons value rest ih => simp only [Admits, ih, List.forall_mem_cons]

/-- Values with new keys, added one after the other, have distinct keys. -/
theorem admits_fresh {accepted : α → Prop} {key : α → β} {before values : List α}
    (distinct : (before.map key).Nodup) :
    Admits (fun before value => accepted value ∧ key value ∉ before.map key) before values ↔
      (∀ value ∈ values, accepted value) ∧ ((before ++ values).map key).Nodup := by
  induction values generalizing before with
  | nil =>
    rw [List.append_nil]
    exact ⟨fun _ => ⟨nofun, distinct⟩, fun _ => trivial⟩
  | cons value rest ih =>
    have extended : ((before ++ [value]).map key).Nodup ↔ key value ∉ before.map key := by
      rw [List.map_append, List.map_singleton, List.nodup_append]
      constructor
      · intro parts member
        rcases parts with ⟨_, _, apart⟩
        exact apart _ member _ List.mem_cons_self rfl
      · intro fresh
        refine ⟨distinct, List.nodup_cons.mpr ⟨List.not_mem_nil, List.nodup_nil⟩, ?_⟩
        intro first member second same equal
        rw [List.mem_singleton.mp same] at equal
        exact fresh (equal ▸ member)
    have split : before ++ value :: rest = before ++ [value] ++ rest := by
      rw [List.append_assoc, List.singleton_append]
    rw [Admits, List.forall_mem_cons, split]
    constructor
    · intro parts
      rcases parts with ⟨⟨acceptable, fresh⟩, later⟩
      rcases (ih (extended.mpr fresh)).mp later with ⟨rest, whole⟩
      exact ⟨⟨acceptable, rest⟩, whole⟩
    · intro parts
      rcases parts with ⟨⟨acceptable, rest⟩, whole⟩
      have front : ((before ++ [value]).map key).Nodup := by
        rw [List.map_append] at whole
        exact (List.nodup_append.mp whole).1
      exact ⟨⟨acceptable, extended.mp front⟩, (ih front).mpr ⟨rest, whole⟩⟩

theorem items_eq_ok (admissible : List α → α → Prop) {before entries after}
    (each : ∀ before path entry value, read before path entry = .ok value ↔
      describes entry value ∧ admissible before value) :
    Loading.items path read before entries = .ok after ↔
      ∃ values, after = before ++ values ∧ List.Forall₂ describes entries values ∧
        Admits admissible before values := by
  induction entries generalizing before with
  | nil =>
    constructor
    · intro done
      cases done
      exact ⟨[], (List.append_nil _).symm, .nil, trivial⟩
    · intro parts
      rcases parts with ⟨values, rfl, described, _⟩
      cases described
      rw [List.append_nil]
      rfl
  | cons entry rest ih =>
    rw [Loading.items, bind_eq_ok]
    constructor
    · intro parts
      rcases parts with ⟨value, first, later⟩
      rcases (each ..).mp first with ⟨describedFirst, admitted⟩
      rcases ih.mp later with ⟨values, rfl, described, admits⟩
      refine ⟨value :: values, ?_, .cons describedFirst described, admitted, admits⟩
      rw [List.append_assoc, List.singleton_append]
    · intro parts
      rcases parts with ⟨values, rfl, described, admits⟩
      cases described with
      | @cons _ value _ values describedFirst described =>
        refine ⟨value, (each ..).mpr ⟨describedFirst, admits.1⟩, ih.mpr ?_⟩
        refine ⟨values, ?_, described, admits.2⟩
        rw [List.append_assoc, List.singleton_append]

/-- Entries that are read each on its own. -/
theorem items_eq_ok_of_each {readOne : Path → Json → Except LoadError α} {accepted : α → Prop}
    {entries : List Json} {values : List α}
    (each : ∀ path entry value, readOne path entry = .ok value ↔
      describes entry value ∧ accepted value) :
    Loading.items path (fun _ => readOne) [] entries = .ok values ↔
      List.Forall₂ describes entries values ∧ ∀ value ∈ values, accepted value := by
  rw [items_eq_ok (fun _ value => accepted value) fun _ => each]
  simp only [List.nil_append, exists_eq_left', admits_forall]

/-- Entries that are read in view of the keys before them. -/
theorem items_eq_ok_of_fresh {accepted : α → Prop} {key : α → β} {entries : List Json}
    {values : List α}
    (each : ∀ before path entry value, read before path entry = .ok value ↔
      describes entry value ∧ accepted value ∧ key value ∉ before.map key) :
    Loading.items path read [] entries = .ok values ↔
      List.Forall₂ describes entries values ∧ (∀ value ∈ values, accepted value) ∧
        (values.map key).Nodup := by
  have none : (([] : List α).map key).Nodup := List.nodup_nil
  rw [items_eq_ok _ each]
  simp only [List.nil_append, exists_eq_left', admits_fresh none]

end Items

/-! ## Declarations -/

theorem field_eq_ok {entry : Json} {field : JavaField} :
    Loading.field path entry = .ok field ↔ DescribesField entry field ∧ field.WellFormed := by
  constructor
  · intro loaded
    cases entry with
    | obj members =>
      rcases bind_eq_ok.mp loaded with ⟨rawName, named, loaded⟩
      rcases bind_eq_ok.mp loaded with ⟨alias?, called, loaded⟩
      rcases bind_eq_ok.mp loaded with ⟨_, identifier, loaded⟩
      rcases bind_eq_ok.mp loaded with ⟨type?, typed, loaded⟩
      cases loaded
      rcases rawName_eq_ok.mp named with ⟨found, nonempty⟩
      have declared := checkIdentifier_eq_ok.mp identifier
      have gives := (exists_text?_getD (Script.ne_nil_of_isIdentifier declared)).mp
        ⟨alias?, called, rfl⟩
      have typeGiven := type?_eq_ok.mp typed
      exact ⟨.entry found gives typeGiven, nonempty, declared, wellFormed_of_givesType? typeGiven⟩
    | _ => cases loaded
  · intro parts
    rcases parts with ⟨describes, wellFormed⟩
    cases describes with
    | entry found gives typed =>
      have nonempty := Script.ne_nil_of_isIdentifier wellFormed.aliasName
      rcases (exists_text?_getD nonempty).mpr gives with ⟨alias?, called, chosen⟩
      refine bind_eq_ok.mpr ⟨_, rawName_eq_ok.mpr ⟨found, wellFormed.rawName⟩, ?_⟩
      refine bind_eq_ok.mpr ⟨alias?, called, ?_⟩
      refine bind_eq_ok.mpr ⟨(), checkIdentifier_eq_ok.mpr (chosen ▸ wellFormed.aliasName), ?_⟩
      refine bind_eq_ok.mpr ⟨_, type?_eq_ok.mpr typed, ?_⟩
      rw [chosen]
      rfl

theorem argumentName_eq_ok {entry : Json} {argument : Text} :
    Loading.argumentName path entry = .ok argument ↔
      Json.str argument = entry ∧ Script.isIdentifier argument = true := by
  constructor
  · intro loaded
    unfold Loading.argumentName at loaded
    split at loaded
    next => cases loaded
    next =>
      rcases bind_eq_ok.mp loaded with ⟨_, identifier, same⟩
      cases same
      exact ⟨rfl, checkIdentifier_eq_ok.mp identifier⟩
    next => cases loaded
  · intro parts
    rcases parts with ⟨rfl, identifier⟩
    cases argument with
    | nil => exact absurd identifier Bool.false_ne_true
    | cons c rest => exact bind_eq_ok.mpr ⟨(), checkIdentifier_eq_ok.mpr identifier, rfl⟩

theorem forall₂_str {entries : List Json} {names : List Text} :
    List.Forall₂ (fun entry name => Json.str name = entry) entries names ↔
      names.map Json.str = entries := by
  constructor
  · intro each
    induction each with
    | nil => rfl
    | cons same _ ih => rw [List.map_cons, same, ih]
  · rintro rfl
    induction names with
    | nil => exact .nil
    | cons name rest ih => exact .cons rfl ih

theorem argumentNameItems_eq_ok {entries : List Json} {names : List Text} :
    Loading.items path (fun _ => Loading.argumentName) [] entries = .ok names ↔
      names.map Json.str = entries ∧ ∀ name ∈ names, Script.isIdentifier name = true := by
  rw [← forall₂_str]
  exact items_eq_ok_of_each fun _ _ _ => argumentName_eq_ok

theorem argumentNames_eq_ok {count : Nat} {names : List Text} :
    Loading.argumentNames path members count = .ok names ↔
      GivesNames members count names ∧ names.length = count ∧
        ∀ name ∈ names, Script.isIdentifier name = true := by
  unfold Loading.argumentNames
  cases found : lookup "argNames" members with
  | none =>
    rw [if_pos Option.isNone_none, pure_eq_ok]
    constructor
    · intro done
      cases done
      exact ⟨.missing found, length_defaultArgumentNames count,
        fun name => isIdentifier_of_mem_defaultArgumentNames⟩
    · intro parts
      rcases parts with ⟨gives, _, _⟩
      cases gives with
      | given present => cases found.symm.trans present
      | missing => rfl
  | some entry =>
    simp only [Option.isNone_some, Bool.false_eq_true, if_false]
    rw [bind_eq_ok]
    constructor
    · intro parts
      rcases parts with ⟨entries, listed, checked⟩
      rcases check_eq_ok.mp checked with ⟨counted, read⟩
      rcases argumentNameItems_eq_ok.mp read with ⟨same, identifiers⟩
      rw [← same, List.length_map] at counted
      refine ⟨?_, Decidable.not_not.mp counted, identifiers⟩
      cases list_eq_ok.mp listed with
      | given present => exact .given (same ▸ present)
      | missing absent => cases found.symm.trans absent
    · intro parts
      rcases parts with ⟨gives, counted, identifiers⟩
      cases gives with
      | missing absent => cases found.symm.trans absent
      | given present =>
        refine ⟨_, list_eq_ok.mpr (.given present), check_eq_ok.mpr ⟨?_, ?_⟩⟩
        · rw [List.length_map]
          exact not_not_intro counted
        · exact argumentNameItems_eq_ok.mpr ⟨rfl, identifiers⟩

theorem isConstructor_eq_ok {rawName : Text} {value : Bool} :
    Loading.isConstructor path members rawName = .ok value ↔
      GivesConstructor members rawName value := by
  unfold Loading.isConstructor
  constructor
  · intro loaded
    split at loaded
    next absent =>
      cases loaded
      exact .missing absent
    next found =>
      cases loaded
      exact .given found
    next => cases loaded
  · intro gives
    cases gives with
    | given found => rw [found]
    | missing absent => rw [absent]

theorem arguments_eq_ok {entries : List Json} {types : List JavaType} :
    Loading.items path (fun _ => Loading.type) [] entries = .ok types ↔
      List.Forall₂ GivesType entries types := by
  have each : ∀ path entry value, Loading.type path entry = .ok value ↔
      GivesType entry value ∧ True := by
    intro path entry value
    rw [type_eq_ok, and_true]
  rw [items_eq_ok_of_each each]
  exact ⟨And.left, fun described => ⟨described, fun _ _ => trivial⟩⟩

theorem method_eq_ok {entry : Json} {method : JavaMethod} :
    Loading.method path entry = .ok method ↔ DescribesMethod entry method ∧ method.WellFormed := by
  constructor
  · intro loaded
    cases entry with
    | obj members =>
      rcases bind_eq_ok.mp loaded with ⟨rawName, named, loaded⟩
      rcases bind_eq_ok.mp loaded with ⟨alias?, called, loaded⟩
      rcases bind_eq_ok.mp loaded with ⟨arguments, listed, loaded⟩
      rcases bind_eq_ok.mp loaded with ⟨argumentTypes, typed, loaded⟩
      rcases bind_eq_ok.mp loaded with ⟨argumentNames, bound, loaded⟩
      rcases bind_eq_ok.mp loaded with ⟨returnType?, returns, loaded⟩
      rcases bind_eq_ok.mp loaded with ⟨isConstructor, decided, loaded⟩
      cases loaded
      rcases rawName_eq_ok.mp named with ⟨found, nonempty⟩
      have aliasNonempty := getD_ne_nil nonempty called
      have gives := (exists_text?_getD aliasNonempty).mp ⟨alias?, called, rfl⟩
      have each := arguments_eq_ok.mp typed
      rcases argumentNames_eq_ok.mp bound with ⟨givesNames, counted, identifiers⟩
      have result := type?_eq_ok.mp returns
      have returnType : (returnType?.getD .void).WellFormed := by
        cases returnType? with
        | none => exact ⟨.primitive (by decide), fun _ => rfl⟩
        | some type => exact wellFormed_of_givesType? result type rfl
      have arguments := forall_of_described each fun _ _ _ => wellFormed_of_givesType
      exact ⟨.entry found gives (list_eq_ok.mp listed) each givesNames result rfl
        (isConstructor_eq_ok.mp decided), nonempty, aliasNonempty, ⟨arguments, returnType⟩,
        counted, identifiers⟩
    | _ => cases loaded
  · intro parts
    rcases parts with ⟨describes, wellFormed⟩
    cases describes with
    | entry found gives listed each givesNames result returnType decided =>
      rcases (exists_text?_getD wellFormed.aliasName).mpr gives with ⟨alias?, called, chosen⟩
      refine bind_eq_ok.mpr ⟨_, rawName_eq_ok.mpr ⟨found, wellFormed.rawName⟩, ?_⟩
      refine bind_eq_ok.mpr ⟨alias?, called, ?_⟩
      refine bind_eq_ok.mpr ⟨_, list_eq_ok.mpr listed, ?_⟩
      refine bind_eq_ok.mpr ⟨_, arguments_eq_ok.mpr each, ?_⟩
      refine bind_eq_ok.mpr ⟨_, argumentNames_eq_ok.mpr
        ⟨givesNames, wellFormed.argumentCount, wellFormed.argumentNames⟩, ?_⟩
      refine bind_eq_ok.mpr ⟨_, type?_eq_ok.mpr result, ?_⟩
      refine bind_eq_ok.mpr ⟨_, isConstructor_eq_ok.mpr decided, ?_⟩
      rw [chosen, returnType]
      rfl

/-- A check of a key against the keys before it. -/
theorem any_key_eq {α β : Type} [DecidableEq β] {key : α → β} {before : List α} {value : α} :
    (¬(before.any fun other => decide (key other = key value)) = true) ↔
      key value ∉ before.map key := by
  rw [List.any_eq_true, List.mem_map]
  simp only [decide_eq_true_eq]

theorem nextMethod_eq_ok {before : List JavaMethod} {entry : Json} {method : JavaMethod} :
    Loading.nextMethod before path entry = .ok method ↔ DescribesMethod entry method ∧
      method.WellFormed ∧ method.identity ∉ before.map JavaMethod.identity := by
  unfold Loading.nextMethod
  rw [bind_eq_ok, ← and_assoc]
  constructor
  · intro parts
    rcases parts with ⟨loaded, read, checked⟩
    rcases check_eq_ok.mp checked with ⟨fresh, same⟩
    cases same
    exact ⟨method_eq_ok.mp read, any_key_eq.mp fresh⟩
  · intro parts
    rcases parts with ⟨described, fresh⟩
    exact ⟨method, method_eq_ok.mpr described, check_eq_ok.mpr ⟨any_key_eq.mpr fresh, rfl⟩⟩

theorem fieldItems_eq_ok {entries : List Json} {fields : List JavaField} :
    Loading.items path (fun _ => Loading.field) [] entries = .ok fields ↔
      List.Forall₂ DescribesField entries fields ∧ ∀ field ∈ fields, field.WellFormed :=
  items_eq_ok_of_each fun _ _ _ => field_eq_ok

theorem methodItems_eq_ok {entries : List Json} {methods : List JavaMethod} :
    Loading.items path Loading.nextMethod [] entries = .ok methods ↔
      List.Forall₂ DescribesMethod entries methods ∧ (∀ method ∈ methods, method.WellFormed) ∧
        (methods.map JavaMethod.identity).Nodup :=
  items_eq_ok_of_fresh fun _ _ _ _ => nextMethod_eq_ok

theorem cls_eq_ok {entry : Json} {cls : JavaClass} :
    Loading.cls path entry = .ok cls ↔ DescribesClass entry cls ∧ cls.WellFormed := by
  constructor
  · intro loaded
    cases entry with
    | obj members =>
      rcases bind_eq_ok.mp loaded with ⟨rawName, named, loaded⟩
      rcases bind_eq_ok.mp loaded with ⟨alias?, called, loaded⟩
      rcases bind_eq_ok.mp loaded with ⟨_, identifier, loaded⟩
      rcases bind_eq_ok.mp loaded with ⟨fieldEntries, fieldList, loaded⟩
      rcases bind_eq_ok.mp loaded with ⟨fieldValues, fieldsRead, loaded⟩
      rcases bind_eq_ok.mp loaded with ⟨methodEntries, methodList, loaded⟩
      rcases bind_eq_ok.mp loaded with ⟨methodValues, methodsRead, loaded⟩
      cases loaded
      rcases rawName_eq_ok.mp named with ⟨found, nonempty⟩
      have declared := checkIdentifier_eq_ok.mp identifier
      have gives := (exists_text?_getD (Script.ne_nil_of_isIdentifier declared)).mp
        ⟨alias?, called, rfl⟩
      rcases fieldItems_eq_ok.mp fieldsRead with ⟨eachField, wellFields⟩
      rcases methodItems_eq_ok.mp methodsRead with ⟨eachMethod, wellMethods, distinct⟩
      exact ⟨.entry found gives (list_eq_ok.mp fieldList) eachField (list_eq_ok.mp methodList)
        eachMethod, nonempty, declared, wellFields, wellMethods, distinct⟩
    | _ => cases loaded
  · intro parts
    rcases parts with ⟨describes, wellFormed⟩
    cases describes with
    | entry found gives fieldList eachField methodList eachMethod =>
      have nonempty := Script.ne_nil_of_isIdentifier wellFormed.aliasName
      rcases (exists_text?_getD nonempty).mpr gives with ⟨alias?, called, chosen⟩
      refine bind_eq_ok.mpr ⟨_, rawName_eq_ok.mpr ⟨found, wellFormed.rawName⟩, ?_⟩
      refine bind_eq_ok.mpr ⟨alias?, called, ?_⟩
      refine bind_eq_ok.mpr ⟨(), checkIdentifier_eq_ok.mpr (chosen ▸ wellFormed.aliasName), ?_⟩
      refine bind_eq_ok.mpr ⟨_, list_eq_ok.mpr fieldList, ?_⟩
      refine bind_eq_ok.mpr ⟨_, fieldItems_eq_ok.mpr ⟨eachField, wellFormed.fields⟩, ?_⟩
      refine bind_eq_ok.mpr ⟨_, list_eq_ok.mpr methodList, ?_⟩
      refine bind_eq_ok.mpr ⟨_, methodItems_eq_ok.mpr
        ⟨eachMethod, wellFormed.methods, wellFormed.distinct⟩, ?_⟩
      rw [chosen]
      rfl

theorem nextClass_eq_ok {before : List JavaClass} {entry : Json} {cls : JavaClass} :
    Loading.nextClass before path entry = .ok cls ↔ DescribesClass entry cls ∧
      cls.WellFormed ∧ cls.rawName ∉ before.map JavaClass.rawName := by
  unfold Loading.nextClass
  rw [bind_eq_ok, ← and_assoc]
  constructor
  · intro parts
    rcases parts with ⟨loaded, read, checked⟩
    rcases check_eq_ok.mp checked with ⟨fresh, same⟩
    cases same
    exact ⟨cls_eq_ok.mp read, any_key_eq.mp fresh⟩
  · intro parts
    rcases parts with ⟨described, fresh⟩
    exact ⟨cls, cls_eq_ok.mpr described, check_eq_ok.mpr ⟨any_key_eq.mpr fresh, rfl⟩⟩

theorem classItems_eq_ok {entries : List Json} {classes : List JavaClass} :
    Loading.items path Loading.nextClass [] entries = .ok classes ↔
      List.Forall₂ DescribesClass entries classes ∧ (∀ cls ∈ classes, cls.WellFormed) ∧
        (classes.map JavaClass.rawName).Nodup :=
  items_eq_ok_of_fresh fun _ _ _ _ => nextClass_eq_ok

end Loading

end HookScript
