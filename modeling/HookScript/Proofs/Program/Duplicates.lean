import HookScript.Proofs.Program.ErrorPath
import HookScript.Proofs.Program.Loading

/-!
# Methods are refused as duplicates rightly

Identities stand for the raw name and the types of a method, and loading compares
nothing else.  So a method entry is refused as a duplicate exactly if a method
before it in the class has the same raw name, the same arguments and the same
result; names that merely look alike do no harm.
-/

namespace HookScript

open Outcome Json

namespace Loading

variable {path : Path}

/-- A class entry that differs from one that loads only in its methods loads
alike, up to the methods. -/
theorem cls_of_cls_eq_ok {members others : List (Text × Json)} {cls : JavaClass}
    (loaded : Loading.cls path (.obj members) = .ok cls)
    (agree : ∀ name : Text, name ≠ "methods" → lookup name others = lookup name members) :
    Loading.cls path (.obj others) = (do
      let entries ← Loading.list path others "methods"
      let methods ← Loading.items (key path "methods") Loading.nextMethod [] entries
      return { cls with methods := methods }) := by
  rw [cls_obj] at loaded ⊢
  rcases bind_eq_ok.mp loaded with ⟨names, named, loaded⟩
  rcases bind_eq_ok.mp loaded with ⟨fields, fieldsRead, loaded⟩
  rcases bind_eq_ok.mp loaded with ⟨methods, _, loaded⟩
  cases loaded
  have sameNames := classNames_congr path (agree "name" (by decide)) (agree "alias" (by decide))
  have sameFields := listed_congr path (fun _ => field) (agree "fields" (by decide))
  rw [sameNames, named, ok_bind, sameFields, fieldsRead, ok_bind, listed, bind_assoc]

/-- A class entry with other methods.  The last member of a name is the one that
counts. -/
def withMethods (members : List (Text × Json)) (methods : List Json) : List (Text × Json) :=
  members ++ [(Text.ofString "methods", Json.arr methods)]

theorem lookup_withMethods (members : List (Text × Json)) (methods : List Json) :
    lookup "methods" (withMethods members methods) = some (.arr methods) := by
  rw [withMethods, lookup_append]
  rfl

theorem lookup_withMethods_of_ne (members : List (Text × Json)) (methods : List Json)
    {name : Text} (other : name ≠ "methods") :
    lookup name members = lookup name (withMethods members methods) := by
  rw [withMethods, lookup_append, lookup, lookup, if_neg (Ne.symm other)]
  rfl

theorem nextMethod_of_method_eq_ok {before : List JavaMethod} {entry : Json} {method : JavaMethod}
    (read : Loading.method path entry = .ok method) :
    Loading.nextMethod before path entry =
      if method.identity ∈ before.map JavaMethod.identity then
        .error ⟨.duplicateMethod method.identity, path⟩
      else .ok method := by
  rw [Loading.nextMethod, read, ok_bind]
  by_cases fresh : method.identity ∉ before.map JavaMethod.identity
  · rw [if_neg (any_key_eq.mpr fresh), if_neg fresh]
    rfl
  · rw [if_pos (Decidable.not_not.mp fun none => fresh (any_key_eq.mp none)),
      if_pos (Decidable.not_not.mp fresh)]
    rfl

/-- An entry that is valid apart from its identity is blamed for the identity
exactly if that occurs before it. -/
theorem items_eq_duplicate_iff {before : List JavaMethod} {entry : Json} {method : JavaMethod}
    (read : Loading.method (path ++ [.index before.length]) entry = .ok method)
    (later : List Json) :
    Loading.items path Loading.nextMethod before (entry :: later) =
        .error ⟨.duplicateMethod method.identity, path ++ [.index before.length]⟩ ↔
      method.identity ∈ before.map JavaMethod.identity := by
  rw [Loading.items, nextMethod_of_method_eq_ok read]
  by_cases taken : method.identity ∈ before.map JavaMethod.identity
  · rw [if_pos taken]
    exact ⟨fun _ => taken, fun _ => rfl⟩
  · rw [if_neg taken, ok_bind]
    refine ⟨fun failed => ?_, fun holds => (taken holds).elim⟩
    rcases items_eq_error_iff.mp failed with ⟨earlier, blamed, rest, values, _, loaded, here⟩
    rcases blames_nextMethod values blamed _ here with ⟨part, _, lies, _⟩
    have beyond := length_of_items_eq_ok loaded
    rw [List.append_assoc] at lies
    have place := Step.index.inj (List.cons.inj (List.append_cancel_left lies)).1
    rw [List.length_append, List.length_singleton, ← place] at beyond
    omega

end Loading

/-- A method whose types were all read from texts. -/
structure JavaMethod.Parsed (method : JavaMethod) : Prop where
  arguments : ∀ type ∈ method.argumentTypes, ∃ text, JavaType.parse text = .ok type
  result : ∃ text, JavaType.parse text = .ok method.returnType

namespace JavaMethod

theorem Parsed.typed {method : JavaMethod} (parsed : method.Parsed) : method.Typed := by
  constructor
  · intro type listed
    rcases parsed.arguments type listed with ⟨text, read⟩
    exact JavaType.wellFormed_of_parse read
  · rcases parsed.result with ⟨text, read⟩
    exact JavaType.wellFormed_of_parse read

/-- Identities are equal exactly if raw names and types are.  Hence a method entry
that is valid in itself, behind entries that load, is refused as a duplicate
exactly if one of these has the same raw name and the same types.  The entries
before it are what loads when the list of methods is cut in front of it. -/
theorem identity_tells_methods_apart :
    (∀ first second : JavaMethod, first.Parsed → second.Parsed →
      (first.identity = second.identity ↔ first.SameSignature second)) ∧
    ∀ (path : Path) (members : List (Text × Json)) (earlier later : List Json) (entry : Json)
      (cls : JavaClass) (method : JavaMethod),
      lookup "methods" members = some (.arr (earlier ++ entry :: later)) →
      Loading.cls path (.obj (Loading.withMethods members earlier)) = .ok cls →
      Loading.method (Loading.key path "methods" ++ [.index earlier.length]) entry = .ok method →
      (Loading.cls path (.obj members) =
          .error ⟨.duplicateMethod method.identity,
            Loading.key path "methods" ++ [.index earlier.length]⟩ ↔
        ∃ other ∈ cls.methods, other.SameSignature method) := by
  refine ⟨fun first second parsed parsed' => identity_eq_iff parsed.typed parsed'.typed, ?_⟩
  intro path members earlier later entry cls method found cut read
  have listed : Loading.list path members "methods" = .ok (earlier ++ entry :: later) :=
    Loading.list_eq_ok.mpr (.given found)
  have whole := Loading.cls_of_cls_eq_ok cut fun _ => Loading.lookup_withMethods_of_ne members earlier
  rw [listed, ok_bind] at whole
  rcases Loading.cls_eq_ok.mp cut with ⟨describes, wellFormed⟩
  have described : List.Forall₂ DescribesMethod earlier cls.methods := by
    cases describes with
    | entry _ _ _ _ methodList eachMethod =>
      cases methodList with
      | given same =>
        rw [Loading.lookup_withMethods] at same
        cases same
        exact eachMethod
      | missing absent =>
        rw [Loading.lookup_withMethods] at absent
        cases absent
  have front : Loading.items (Loading.key path "methods") Loading.nextMethod [] earlier =
      .ok cls.methods :=
    Loading.methodItems_eq_ok.mpr ⟨described, wellFormed.methods, wellFormed.distinct⟩
  rw [described.length_eq] at read ⊢
  rw [Loading.items_append, front, ok_bind] at whole
  have compare : (∃ other ∈ cls.methods, other.SameSignature method) ↔
      method.identity ∈ cls.methods.map identity := by
    have typed := (Loading.method_eq_ok.mp read).2.typed
    rw [List.mem_map]
    refine exists_congr fun other => and_congr_right fun member => ?_
    exact (identity_eq_iff (wellFormed.methods other member).typed typed).symm
  rw [compare, ← Loading.items_eq_duplicate_iff read later, whole]
  constructor
  · intro failed
    rcases bind_eq_error.mp failed with duplicate | ⟨_, _, impossible⟩
    · exact duplicate
    · cases impossible
  · intro duplicate
    exact bind_eq_error.mpr (Or.inl duplicate)

/-- A method entry with a raw name that looks like an identity. -/
def arrayEntry (written : Text) : Json :=
  .obj [("name", .str "f(I)V"), ("args", .arr [.str written])]

/-- A class entry that gives one argument type in both notations. -/
def repeatingMembers : List (Text × Json) :=
  [("name", .str "a.C"), ("methods", .arr [arrayEntry "int[]", arrayEntry "[I"])]

/-- A raw name may look like the identity of another method.  Two notations of the
same argument make a duplicate. -/
theorem identity_tells_methods_apart_arrays :
    (JavaMethod.mk "f(I)V" "f" [] .void [] false).identity ≠
        (JavaMethod.mk "f" "f" [.primitive .int] .void ["p0"] false).identity ∧
      Loading.cls [] (.obj repeatingMembers) =
        .error ⟨.duplicateMethod "f(I)V([I)V", [.key "methods", .index 1]⟩ := by
  have void : ∃ text, JavaType.parse text = .ok .void := ⟨"void", rfl⟩
  have int : ∃ text, JavaType.parse text = .ok (.primitive .int) := ⟨"int", rfl⟩
  have plain : (JavaMethod.mk "f(I)V" "f" [] .void [] false).Parsed :=
    ⟨fun _ listed => absurd listed List.not_mem_nil, void⟩
  have withInt : (JavaMethod.mk "f" "f" [.primitive .int] .void ["p0"] false).Parsed :=
    ⟨fun _ listed => List.mem_singleton.mp listed ▸ int, void⟩
  constructor
  · intro same
    have apart := (identity_tells_methods_apart.1 _ _ plain withInt).mp same
    exact absurd apart.rawName (by decide)
  · exact (identity_tells_methods_apart.2 [] repeatingMembers [arrayEntry "int[]"] []
      (arrayEntry "[I") _ _ rfl rfl rfl).mpr ⟨_, List.mem_cons_self, rfl, rfl, rfl⟩

end JavaMethod

end HookScript
