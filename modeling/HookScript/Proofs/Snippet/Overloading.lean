import HookScript.Proofs.Snippet.Requests
import HookScript.Proofs.Snippet.Selectors

/-!
# Which hooks have a selector

A hook has a selector if a method of the same raw name has another identity.  In a
loaded class no two methods have one identity, so this comes down to a count: a hook has
a selector exactly if its method is not the only one of its raw name.  The count is the
same for all methods of a raw name, so these all have selectors or none of them has one.

The methods are counted through a context.  It gives the methods of the class as they
are, whatever it has been used for before.
-/

namespace HookScript

/-! ## Counting namesakes -/

/-- Of two or more methods with identities of their own, one has another identity than a given
one. -/
theorem JavaMethod.exists_identity_ne {methods : List JavaMethod}
    (distinct : (methods.map JavaMethod.identity).Nodup) (several : 2 ≤ methods.length)
    (identity : Text) : ∃ other ∈ methods, other.identity ≠ identity := by
  match methods, distinct, several with
  | first :: second :: _, distinct, _ =>
    by_cases same : first.identity = identity
    · refine ⟨second, List.mem_cons_of_mem _ List.mem_cons_self, fun same' => ?_⟩
      have apart := (List.nodup_cons.mp distinct).1
      exact apart (List.mem_cons.mpr (Or.inl (same.trans same'.symm)))
    · exact ⟨first, List.mem_cons_self, same⟩

namespace JavaClass

variable {cls : JavaClass} {method : JavaMethod}

/-- How many methods of a class have a raw name. -/
def countNamed (cls : JavaClass) (name : Text) : Nat :=
  cls.methods.countP fun method => method.rawName = name

def methodsNamed (cls : JavaClass) (name : Text) : List JavaMethod :=
  cls.methods.filter fun method => method.rawName = name

theorem length_methodsNamed (cls : JavaClass) (name : Text) :
    (cls.methodsNamed name).length = cls.countNamed name :=
  List.countP_eq_length_filter.symm

theorem mem_methodsNamed {name : Text} :
    method ∈ cls.methodsNamed name ↔ method ∈ cls.methods ∧ method.rawName = name := by
  rw [methodsNamed, List.mem_filter, decide_eq_true_eq]

theorem overloads_iff_exists_methodsNamed :
    cls.overloads method = true ↔
      ∃ other ∈ cls.methodsNamed method.rawName, other.identity ≠ method.identity := by
  simp only [overloads, List.any_eq_true, decide_eq_true_eq, mem_methodsNamed, and_assoc]

theorem overloads_iff_countNamed (wellFormed : cls.WellFormed) (declared : method ∈ cls.methods) :
    cls.overloads method = true ↔ 2 ≤ cls.countNamed method.rawName := by
  rw [overloads_iff_exists_methodsNamed, ← length_methodsNamed]
  constructor
  · rintro ⟨other, listed, different⟩
    have pair : [method, other].Nodup :=
      List.nodup_cons.mpr ⟨fun same => different (congrArg _ (List.mem_singleton.mp same).symm),
        List.nodup_singleton other⟩
    have here : method ∈ cls.methodsNamed method.rawName := mem_methodsNamed.mpr ⟨declared, rfl⟩
    exact pair.length_le_of_subset
      (List.cons_subset.mpr ⟨here, List.cons_subset.mpr ⟨listed, List.nil_subset _⟩⟩)
  · intro several
    have distinct : ((cls.methodsNamed method.rawName).map JavaMethod.identity).Nodup :=
      wellFormed.distinct.sublist (List.filter_sublist.map JavaMethod.identity)
    exact JavaMethod.exists_identity_ne distinct several method.identity

/-! ## Blocks of methods -/

theorem hasSelector_hookBlock (wellFormed : cls.WellFormed) (declared : method ∈ cls.methods)
    (placement : Placement) :
    Hook.hasSelector (cls.hookBlock placement method) = cls.overloads method := by
  rw [Hook.hasSelector_of_lines (wellFormed.hook declared)
    (splitAtEach_hookBlock wellFormed placement declared)]
  change (if cls.overloads method = true then _ else none : Option (List Text)).isSome = _
  cases cls.overloads method <;> rfl

theorem behindKey?_hookBlock (wellFormed : cls.WellFormed) (declared : method ∈ cls.methods)
    (placement : Placement) : Hook.behindKey? (cls.hookBlock placement method) =
      some ((if cls.overloads method then JavaType.selector method.argumentTypes else []) ++
        Hook.assignment method.argumentNames) := by
  rw [Hook.behindKey?_of_lines (wellFormed.hook declared)
    (splitAtEach_hookBlock wellFormed placement declared)]
  have selects : (cls.hook method).selector? = if cls.overloads method = true then
      some (method.argumentTypes.map JavaType.overloadArgument) else none := rfl
  cases present : cls.overloads method with
  | true =>
    rw [present, if_pos rfl] at selects
    rw [Hook.overload_of_selector? selects, if_pos rfl]
    rfl
  | false =>
    rw [present, if_neg Bool.false_ne_true] at selects
    rw [Hook.overload, selects, if_neg Bool.false_ne_true]
    rfl

/-- A method of a loaded class is always hooked, whatever the context has been used for.  The
hook has a selector exactly if two methods of the class at least have the raw name of the
method; the selector lists the types of the arguments in their order, one for each
parameter of the hook.  All methods of one raw name have selectors or none of them has
one. -/
theorem hasSelector_iff_countNamed {document : Json} {model : Model}
    (loaded : Model.ofJson document = .ok model) (listed : cls ∈ model.classes)
    (declared : method ∈ cls.methods) {owners : List Owner} (apart : (owners.map Owner.id).Nodup)
    {id : ClassId} (known : cls.ownerAs id ∈ owners) {context : Context}
    (served : context.Served owners) (placement : Placement) :
    ∃ block, ((Snippet.method placement (cls.memberAs id method)).runWith context).1 = .ok block ∧
      (Hook.hasSelector block = true ↔ 2 ≤ cls.countNamed method.rawName) ∧
      Hook.behindKey? block = some
        ((if Hook.hasSelector block then JavaType.selector method.argumentTypes else []) ++
          Hook.assignment method.argumentNames) ∧
      method.argumentTypes.length = method.argumentNames.length ∧
      ∀ other ∈ cls.methods, other.rawName = method.rawName → ∀ otherPlacement, ∃ otherBlock,
        ((Snippet.method otherPlacement (cls.memberAs id other)).runWith context).1 =
          .ok otherBlock ∧
        Hook.hasSelector otherBlock = Hook.hasSelector block := by
  have wellFormed := Model.wellFormed_of_loaded loaded listed
  have knows : context.Knows (cls.ownerAs id) := served.knowsAll apart _ known
  have written : ∀ {other : JavaMethod}, other ∈ cls.methods → ∀ placement : Placement,
      ((Snippet.method placement (cls.memberAs id other)).runWith context).1 =
        .ok (cls.hookBlock placement other) := by
    intro other declared' placement
    rcases yields_hookBlockAs wellFormed.typed id placement declared' context knows with
      ⟨after, runs, _⟩
    rw [runs]
  have selects := hasSelector_hookBlock wellFormed declared placement
  refine ⟨cls.hookBlock placement method, written declared placement, ?_, ?_, ?_, ?_⟩
  · rw [selects]
    exact overloads_iff_countNamed wellFormed declared
  · rw [selects]
    exact behindKey?_hookBlock wellFormed declared placement
  · exact (wellFormed.methods method declared).argumentCount.symm
  · intro other declared' same otherPlacement
    refine ⟨_, written declared' otherPlacement, ?_⟩
    rw [selects, hasSelector_hookBlock wellFormed declared' otherPlacement, Bool.eq_iff_iff,
      overloads_iff_countNamed wellFormed declared', overloads_iff_countNamed wellFormed declared,
      same]

/-- A document with a method and its bridge, a method whose name looks like a selector, and
another class. -/
def lookalikeDocument : Json :=
  .obj [("classes", .arr [
    .obj [("name", .str "A"), ("methods", .arr [
      .obj [("name", .str "f"), ("args", .arr [.str "int[]"])],
      .obj [("name", .str "f"), ("args", .arr [.str "int[]"]), ("ret", .str "int")],
      .obj [("name", .str "f\"].overload(")]])],
    .obj [("name", .str "B"), ("methods", .arr [.obj [("name", .str "f")]])]])]

def bridgedMethod (returnType : JavaType) : JavaMethod :=
  ⟨"f", "f", [⟨.primitive .int, 1⟩], returnType, ["p0"], false⟩

def lookalikeMethod : JavaMethod := ⟨"f\"].overload(", "f\"].overload(", [], .void, [], false⟩

def lookalikeClass : JavaClass :=
  ⟨"A", "A", [], [bridgedMethod .void, bridgedMethod (.primitive .int), lookalikeMethod]⟩

def bystanderClass : JavaClass := ⟨"B", "B", [], [⟨"f", "f", [], .void, [], false⟩]⟩

/-- The context has been used for the snippet of the class and for another class. -/
theorem hasSelector_iff_countNamed_lookalike :
    let context := [Request.snippet lookalikeClass.view,
      .methodsNamed (bystanderClass.ownerAs ⟨1⟩) "f"].foldl Request.serve .empty
    (∃ block, ((Snippet.method .embedded (lookalikeClass.memberAs ⟨0⟩
        (bridgedMethod .void))).runWith context).1 = .ok block ∧
      Hook.behindKey? block =
        some ".overload('[I').implementation = function (p0) \x7b") ∧
    ∃ block, ((Snippet.method .standalone (lookalikeClass.memberAs ⟨0⟩
        lookalikeMethod)).runWith context).1 = .ok block ∧ Hook.hasSelector block = false := by
  intro context
  have loaded : Model.ofJson lookalikeDocument = .ok (.ofClasses [lookalikeClass, bystanderClass]) :=
    rfl
  have listed : lookalikeClass ∈ (Model.ofClasses [lookalikeClass, bystanderClass]).classes :=
    List.mem_cons_self
  let owners := [lookalikeClass.ownerAs ⟨0⟩, bystanderClass.ownerAs ⟨1⟩]
  have apart : (owners.map Owner.id).Nodup := by decide
  have known : lookalikeClass.ownerAs ⟨0⟩ ∈ owners := List.mem_cons_self
  have served : context.Served owners := by
    refine ⟨_, List.forall_mem_cons.mpr ⟨?_, List.forall_mem_singleton.mpr ?_⟩, rfl⟩
    · decide
    · decide
  have bridged : bridgedMethod .void ∈ lookalikeClass.methods := List.mem_cons_self
  have lookalike : lookalikeMethod ∈ lookalikeClass.methods := by decide
  constructor
  · rcases hasSelector_iff_countNamed loaded listed bridged apart known served .embedded with
      ⟨block, written, selects, behind, _⟩
    rw [selects.mpr (by decide)] at behind
    exact ⟨block, written, behind⟩
  · rcases hasSelector_iff_countNamed loaded listed lookalike apart known served .standalone with
      ⟨block, written, selects, _⟩
    exact ⟨block, written, Bool.eq_false_iff.mpr fun found => absurd (selects.mp found) (by decide)⟩

end JavaClass

end HookScript
