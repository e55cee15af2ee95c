import HookScript.Proofs.Snippet.Faithful
import Mathlib.Data.List.Nodup

/-!
# Which hooks replace the same method

The hooks of a class snippet are installed one after the other, and of two with
the same target only the later one stays.  That happens to methods which differ in
nothing but the result type, and otherwise only to oddities: methods that share
the key of constructors, names that differ in how a surrogate pair is spelled, and
argument types of which one is a class named like a primitive type.

In a class without these every hook has a target of its own.
-/

namespace HookScript

open Script

theorem Hook.target_eq_iff {first second : Hook} (wellFirst : first.WellFormed)
    (wellSecond : second.WellFormed) (handle : first.handle = second.handle) :
    first.target = second.target ↔
      first.key.units16 = second.key.units16 ∧ first.selector? = second.selector? := by
  constructor
  · intro same
    have shape : ∀ hook : Hook, hook.target = hook.handle.variableName ++ (Text.ofString "[\"" ++
        (StringLiteral.escape hook.key ++ .ofChar '\x22' :: .ofChar ']' :: hook.overload)) := by
      intro hook
      simp only [target, keyLiteral, List.append_assoc]
      rfl
    rw [shape, shape, handle] at same
    have indexed := List.append_cancel_left (List.append_cancel_left same)
    rcases StringLiteral.units16_append_quote_inj indexed with ⟨key, bracket⟩
    have overload := congrArg (· ++ (Text.ofString ".implementation" ++ [])) (List.cons.inj bracket).2
    exact ⟨key, (selector?_append_inj wellFirst wellSecond overload).1⟩
  · intro parts
    rcases parts with ⟨key, selector?⟩
    have keyLiteral : first.keyLiteral = second.keyLiteral := StringLiteral.escape_eq_iff.mpr key
    rw [target, target, handle, keyLiteral, Hook.overload, Hook.overload, selector?]

/-- Where no class is named like a primitive type, arguments select types exactly. -/
theorem JavaType.eq_of_selectedAlike {first second : List JavaType}
    (named : ∀ type ∈ first, ∀ keyword ∈ Primitive.all, type ≠ object keyword.name)
    (named' : ∀ type ∈ second, ∀ keyword ∈ Primitive.all, type ≠ object keyword.name)
    (alike : List.Forall₂ SelectedAlike first second) : first = second := by
  induction alike with
  | nil => rfl
  | cons here _ ih =>
    rcases List.forall_mem_cons.mp named with ⟨notClass, later⟩
    rcases List.forall_mem_cons.mp named' with ⟨notClass', later'⟩
    rw [ih later later']
    rcases here with same | ⟨keyword, known, ⟨_, isClass⟩ | ⟨isClass, _⟩⟩
    · rw [same]
    · exact (notClass' keyword known isClass).elim
    · exact (notClass keyword known isClass).elim

namespace JavaClass

variable {cls : JavaClass} {first second : JavaMethod}

/-- Methods of a class that are hooked under the same key and selected by the same
arguments, if they are selected by arguments at all. -/
structure Clash (cls : JavaClass) (first second : JavaMethod) : Prop where
  lookupKey : first.lookupKey.units16 = second.lookupKey.units16
  overloads : cls.overloads first = cls.overloads second
  arguments : cls.overloads first = true →
    List.Forall₂ JavaType.SelectedAlike first.argumentTypes second.argumentTypes

/-- A class in which constructors are called and marked as such, no other method has
their key, no raw name splits a surrogate pair, no argument is of a class named like
a primitive type, and raw name and arguments are enough to tell methods apart. -/
structure Regular (cls : JavaClass) : Prop where
  constructors : ∀ method ∈ cls.hooked,
    (method.isConstructor = true ↔ method.rawName = JavaMethod.constructorName)
  keys : ∀ method ∈ cls.hooked, method.rawName ≠ Hook.constructorKey
  joined : ∀ method ∈ cls.hooked, method.rawName.Joined
  arguments : ∀ method ∈ cls.hooked, ∀ type ∈ method.argumentTypes,
    ∀ keyword ∈ Primitive.all, type ≠ JavaType.object keyword.name
  overloads : ∀ first ∈ cls.hooked, ∀ second ∈ cls.hooked, first.rawName = second.rawName →
    first.argumentTypes = second.argumentTypes → first = second

theorem target_eq_iff (wellFormed : cls.WellFormed) (declared : first ∈ cls.methods)
    (declared' : second ∈ cls.methods) :
    (cls.hook first).target = (cls.hook second).target ↔ cls.Clash first second := by
  rw [Hook.target_eq_iff (wellFormed.hook declared) (wellFormed.hook declared') rfl,
    selector?_hook_eq_iff, JavaType.map_overloadArgument_eq_iff
      (wellFormed.typed first declared).arguments (wellFormed.typed second declared').arguments]
  constructor
  · intro parts
    exact ⟨parts.1, parts.2.1, parts.2.2⟩
  · intro clash
    exact ⟨clash.lookupKey, clash.overloads, clash.arguments⟩

example :
    let make : JavaMethod := ⟨"make", "make", [], .void, [], true⟩
    let build : JavaMethod := ⟨"build", "build", [.primitive .int], .void, ["p0"], true⟩
    let cls : JavaClass := ⟨"A", "A", [], [make, build]⟩
    (cls.hook make).target = (cls.hook build).target := by decide

/-! ## Regular classes -/

theorem Regular.rawName_eq (regular : cls.Regular) (hooked : first ∈ cls.hooked)
    (hooked' : second ∈ cls.hooked) (same : first.lookupKey.units16 = second.lookupKey.units16) :
    first.rawName = second.rawName := by
  have init : Hook.constructorKey.Joined := (Text.scalar_ofString "$init").joined
  have joined := regular.joined first hooked
  have joined' := regular.joined second hooked'
  have plain : ∀ method : JavaMethod, method.isConstructor = false →
      method.lookupKey = method.rawName := fun method none => if_neg (none ▸ Bool.false_ne_true)
  have marked : ∀ method : JavaMethod, method.isConstructor = true →
      method.lookupKey = Hook.constructorKey := fun _ constructor => if_pos constructor
  cases kind : first.isConstructor with
  | false =>
    rw [plain first kind] at same
    cases kind' : second.isConstructor with
    | false =>
      rw [plain second kind'] at same
      exact (Text.units16_inj joined joined').mp same
    | true =>
      rw [marked second kind'] at same
      exact (regular.keys first hooked ((Text.units16_inj joined init).mp same)).elim
  | true =>
    rw [marked first kind] at same
    cases kind' : second.isConstructor with
    | false =>
      rw [plain second kind'] at same
      exact (regular.keys second hooked' ((Text.units16_inj init joined').mp same).symm).elim
    | true =>
      have called := (regular.constructors first hooked).mp kind
      have called' := (regular.constructors second hooked').mp kind'
      rw [called, called']

/-- Methods of a regular class clash only with themselves. -/
theorem Regular.eq_of_clash (regular : cls.Regular) (wellFormed : cls.WellFormed)
    (hooked : first ∈ cls.hooked) (hooked' : second ∈ cls.hooked) (clash : cls.Clash first second) :
    first = second := by
  have rawName := regular.rawName_eq hooked hooked' clash.lookupKey
  have declared := (List.mem_filter.mp hooked).1
  have declared' := (List.mem_filter.mp hooked').1
  cases present : cls.overloads first with
  | true =>
    exact regular.overloads first hooked second hooked' rawName
      (JavaType.eq_of_selectedAlike (regular.arguments first hooked)
        (regular.arguments second hooked') (clash.arguments present))
  | false =>
    have alone := List.any_eq_false.mp present second declared'
    rw [decide_eq_true_eq, not_and, not_not] at alone
    exact List.inj_on_of_nodup_map wellFormed.distinct declared declared' (alone rawName.symm).symm

/-- Hooks of a class snippet have the same target exactly if their methods clash,
which they never do in a regular class. -/
theorem hook_targets_eq_iff_clash {document : Json} {model : Model}
    (loaded : Model.ofJson document = .ok model) (listed : cls ∈ model.classes) :
    (∃ text, Snippet.generate (.cls (some cls.view)) = .ok text ∧
      ∀ method ∈ cls.hooked, ∃ rest,
        (cls.hook method).target ++ ".implementation" ++ rest ∈ text.splitAtEach '\n') ∧
    (∀ first ∈ cls.hooked, ∀ second ∈ cls.hooked,
      ((cls.hook first).target = (cls.hook second).target ↔ cls.Clash first second)) ∧
    (cls.Regular → ∀ first ∈ cls.hooked, ∀ second ∈ cls.hooked, first ≠ second →
      (cls.hook first).target ≠ (cls.hook second).target) := by
  have wellFormed := Model.wellFormed_of_loaded loaded listed
  have compare : ∀ first ∈ cls.hooked, ∀ second ∈ cls.hooked,
      ((cls.hook first).target = (cls.hook second).target ↔ cls.Clash first second) :=
    fun first hooked second hooked' => target_eq_iff wellFormed (List.mem_filter.mp hooked).1
      (List.mem_filter.mp hooked').1
  refine ⟨⟨cls.snippet, generate_cls wellFormed.typed, ?_⟩, compare, ?_⟩
  · intro method hooked
    rw [snippet_eq, Text.splitAtEach_lines wellFormed.inline_lines (List.cons_ne_nil _ _)]
    refine ⟨" = function (" ++ (cls.hook method).parameterList ++ ") \x7b", ?_⟩
    have shape : (cls.hook method).openingLine = (cls.hook method).target ++ ".implementation" ++
        (" = function (" ++ (cls.hook method).parameterList ++ ") \x7b") := by
      simp only [Hook.openingLine, List.append_assoc]
      rfl
    have opening : (cls.hook method).openingLine ∈ (cls.hook method).lines [] :=
      List.mem_cons_of_mem _ List.mem_cons_self
    rw [← shape]
    exact List.mem_cons_of_mem _ (List.mem_append_right _ (List.mem_flatMap.mpr
      ⟨method, hooked, opening⟩))
  · intro regular first hooked second hooked' different same
    exact different (regular.eq_of_clash wellFormed hooked hooked'
      ((compare first hooked second hooked').mp same))

/-- A document with a constructor and an overloaded method. -/
def overloadingDocument : Json :=
  .obj [("classes", .arr [.obj [("name", .str "A"), ("methods", .arr [
    .obj [("name", .str "<init>")],
    .obj [("name", .str "f"), ("args", .arr [.str "int"])],
    .obj [("name", .str "f"), ("args", .arr [.str "int[]"]), ("ret", .str "int")]])]])]

def overloadingClass : JavaClass :=
  ⟨"A", "A", [], [⟨"<init>", "<init>", [], .void, [], true⟩,
    ⟨"f", "f", [.primitive .int], .void, ["p0"], false⟩,
    ⟨"f", "f", [⟨.primitive .int, 1⟩], .primitive .int, ["p0"], false⟩]⟩

theorem regular_overloadingClass : overloadingClass.Regular := by
  have scalar : ∀ method ∈ overloadingClass.hooked, method.rawName.Scalar := by decide
  exact ⟨by decide, by decide, fun method hooked => (scalar method hooked).joined, by decide, by decide⟩

theorem hook_targets_eq_iff_clash_overloading :
    (overloadingClass.hooked.map fun method => (overloadingClass.hook method).target).Nodup := by
  have loaded : Model.ofJson overloadingDocument = .ok (.ofClasses [overloadingClass]) := rfl
  have apart := (hook_targets_eq_iff_clash loaded List.mem_cons_self).2.2 regular_overloadingClass
  have methods : overloadingClass.hooked.Nodup := by decide
  refine methods.map_on fun first hooked second hooked' same => ?_
  by_contra different
  exact apart first hooked second hooked' different same

/-- A document with a method and the bridge that a compiler adds to it. -/
def bridgeDocument : Json :=
  .obj [("classes", .arr [.obj [("name", .str "A"), ("methods", .arr [
    .obj [("name", .str "f"), ("args", .arr [.str "int"])],
    .obj [("name", .str "f"), ("args", .arr [.str "int"]), ("ret", .str "int")]])]])]

/-- The hook of a bridge replaces the hook of its method. -/
theorem exists_shared_target :
    ∃ model cls first second, Model.ofJson bridgeDocument = .ok model ∧ cls ∈ model.classes ∧
      first ∈ cls.hooked ∧ second ∈ cls.hooked ∧ first ≠ second ∧
      (cls.hook first).target = (cls.hook second).target := by
  let first : JavaMethod := ⟨"f", "f", [.primitive .int], .void, ["p0"], false⟩
  let second : JavaMethod := ⟨"f", "f", [.primitive .int], .primitive .int, ["p0"], false⟩
  exact ⟨.ofClasses [⟨"A", "A", [], [first, second]⟩], ⟨"A", "A", [], [first, second]⟩, first, second,
    rfl, List.mem_cons_self, by decide, by decide, by decide, by decide⟩

end JavaClass

end HookScript
