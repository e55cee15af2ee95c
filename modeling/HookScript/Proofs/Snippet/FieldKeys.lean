import HookScript.Proofs.Snippet.Composition

/-!
# Keys of fields

A field that shares its raw name with a method of its class has an underscore in front
of its key.  The key that this makes is not looked up again.  If a method has it for a
raw name, the field is taken for this method; if another field has it for a raw name,
both fields have one key.

These are the only ways in which keys clash, as long as fields have raw names of their
own.  So the underscore keeps the members of a class apart exactly if it makes no
name that a member of the class has already.
-/

namespace HookScript

/-- The raw name of a field with an underscore in front. -/
def JavaField.underscored (field : JavaField) : Text := "_" ++ field.rawName

theorem JavaField.underscored_inj {first second : JavaField} :
    first.underscored = second.underscored ↔ first.rawName = second.rawName :=
  ⟨List.append_cancel_left, congrArg (Text.ofString "_" ++ ·)⟩

theorem JavaField.underscored_ne (field : JavaField) : field.underscored ≠ field.rawName :=
  List.cons_ne_self _ _

namespace JavaClass

variable {cls : JavaClass} {field other : JavaField} {method : JavaMethod}

theorem key_of_shadows (shared : cls.shadows field = true) :
    (cls.probe field).key = field.underscored :=
  if_pos shared

theorem key_of_not_shadows (own : cls.shadows field = false) :
    (cls.probe field).key = field.rawName :=
  if_neg (Bool.eq_false_iff.mp own)

/-- The key of one field with an underscore is the raw name of another one, which is its
key. -/
structure MovesOnto (cls : JavaClass) (field other : JavaField) : Prop where
  shared : cls.shadows field = true
  own : cls.shadows other = false
  taken : other.rawName = field.underscored

/-- A key without an underscore is the raw name of no method, and one with an underscore
may be. -/
theorem key_eq_rawName_iff (declared : method ∈ cls.methods) :
    (cls.probe field).key = method.rawName ↔
      cls.shadows field = true ∧ method.rawName = field.underscored := by
  cases shared : cls.shadows field with
  | true =>
    rw [key_of_shadows shared]
    exact ⟨fun same => ⟨rfl, same.symm⟩, fun taken => taken.2.symm⟩
  | false =>
    rw [key_of_not_shadows shared]
    refine ⟨fun same => ?_, nofun⟩
    have found := shadows_iff.mpr ⟨method, declared, same.symm⟩
    rw [shared] at found
    cases found

theorem key_eq_key_iff (different : field.rawName ≠ other.rawName) :
    (cls.probe field).key = (cls.probe other).key ↔
      cls.MovesOnto field other ∨ cls.MovesOnto other field := by
  constructor
  · intro same
    cases shared : cls.shadows field <;> cases shared' : cls.shadows other
    · rw [key_of_not_shadows shared, key_of_not_shadows shared'] at same
      exact (different same).elim
    · rw [key_of_not_shadows shared, key_of_shadows shared'] at same
      exact Or.inr ⟨shared', shared, same⟩
    · rw [key_of_shadows shared, key_of_not_shadows shared'] at same
      exact Or.inl ⟨shared, shared', same.symm⟩
    · rw [key_of_shadows shared, key_of_shadows shared'] at same
      exact (different (JavaField.underscored_inj.mp same)).elim
  · rintro (moves | moves)
    · rw [key_of_shadows moves.shared, key_of_not_shadows moves.own, moves.taken]
    · rw [key_of_not_shadows moves.own, key_of_shadows moves.shared, moves.taken]

/-- The keys of the fields tell them from the methods of the class, and from fields with
other raw names. -/
structure KeysTellApart (cls : JavaClass) : Prop where
  methods : ∀ field ∈ cls.fields, ∀ method ∈ cls.methods, (cls.probe field).key ≠ method.rawName
  fields : ∀ field ∈ cls.fields, ∀ other ∈ cls.fields, field.rawName ≠ other.rawName →
    (cls.probe field).key ≠ (cls.probe other).key

/-- The raw names of all members. -/
def memberNames (cls : JavaClass) : List Text :=
  cls.fields.map JavaField.rawName ++ cls.methods.map JavaMethod.rawName

theorem keysTellApart_iff : cls.KeysTellApart ↔
    ∀ field ∈ cls.fields, cls.shadows field = true → field.underscored ∉ cls.memberNames := by
  constructor
  · intro apart field declared shared taken
    have noMethod : ∀ method ∈ cls.methods, method.rawName ≠ field.underscored := by
      intro method inMethods same
      have clash := (key_eq_rawName_iff inMethods).mpr ⟨shared, same⟩
      exact apart.methods field declared method inMethods clash
    rcases List.mem_append.mp taken with inFields | inMethods
    · rcases List.mem_map.mp inFields with ⟨other, declared', same⟩
      have own : cls.shadows other = false := by
        rw [Bool.eq_false_iff, ne_eq, shadows_iff]
        rintro ⟨method, inMethods, named⟩
        exact noMethod method inMethods (named.trans same)
      have different : field.rawName ≠ other.rawName :=
        fun equal => field.underscored_ne (same.symm.trans equal.symm)
      exact apart.fields field declared other declared' different
        ((key_eq_key_iff different).mpr (Or.inl ⟨shared, own, same⟩))
    · rcases List.mem_map.mp inMethods with ⟨method, declared', same⟩
      exact noMethod method declared' same
  · intro free
    have notTaken : ∀ {field other : JavaField}, field ∈ cls.fields → other ∈ cls.fields →
        ¬cls.MovesOnto field other := by
      intro field other declared declared' moves
      refine free field declared moves.shared (List.mem_append_left _ ?_)
      exact List.mem_map.mpr ⟨other, declared', moves.taken⟩
    constructor
    · intro field declared method inMethods same
      rcases (key_eq_rawName_iff inMethods).mp same with ⟨shared, taken⟩
      refine free field declared shared (List.mem_append_right _ ?_)
      exact List.mem_map.mpr ⟨method, inMethods, taken⟩
    · intro field declared other declared' different same
      rcases (key_eq_key_iff different).mp same with moves | moves
      · exact notTaken declared declared' moves
      · exact notTaken declared' declared moves

/-- Every field has a key.  It is the raw name of a method exactly if the field shares its
raw name with a method and the method has this name with an underscore; two fields
with different raw names have one key exactly if one of them shares its raw name with a
method and the other has this name with an underscore, and shares it with none.  So
the keys tell the members apart exactly if no member has the name of a shared field with
an underscore. -/
theorem field_keys_clash_iff (cls : JavaClass) :
    (∀ field ∈ cls.fields, (Probe.keyIn (cls.member field)).runFresh = .ok (cls.probe field).key ∧
      ∀ method ∈ cls.methods, ((cls.probe field).key = method.rawName ↔
        cls.shadows field = true ∧ method.rawName = field.underscored)) ∧
    (∀ field ∈ cls.fields, ∀ other ∈ cls.fields, field.rawName ≠ other.rawName →
      ((cls.probe field).key = (cls.probe other).key ↔
        cls.MovesOnto field other ∨ cls.MovesOnto other field)) ∧
    (cls.KeysTellApart ↔
      ∀ field ∈ cls.fields, cls.shadows field = true → field.underscored ∉ cls.memberNames) :=
  ⟨fun field _ => ⟨(yields_key field).runFresh, fun _ declared => key_eq_rawName_iff declared⟩,
    fun _ _ _ _ different => key_eq_key_iff different, keysTellApart_iff⟩

/-- A class with underscores in the names of its members that do not clash. -/
def underscoredClass : JavaClass :=
  ⟨"A", "A", [⟨"x", "x", none⟩, ⟨"_y", "_y", none⟩],
    [⟨"x", "x", [], .void, [], false⟩, ⟨"y", "y", [], .void, [], false⟩]⟩

theorem field_keys_clash_iff_underscored :
    (Probe.keyIn (underscoredClass.member ⟨"x", "x", none⟩)).runFresh = .ok (Text.ofString "_x") ∧
      underscoredClass.KeysTellApart := by
  rcases underscoredClass.field_keys_clash_iff with ⟨keys, _, apart⟩
  exact ⟨(keys ⟨"x", "x", none⟩ List.mem_cons_self).1, apart.mpr (by decide)⟩

/-- A document with a field and methods named `x`, `x` and `_x`, and with fields and a
method named `y`, `_y` and `y`. -/
def clashingDocument : Json :=
  .obj [("classes", .arr [.obj [("name", .str "A"),
    ("fields", .arr [.obj [("name", .str "x")], .obj [("name", .str "y")],
      .obj [("name", .str "_y")]]),
    ("methods", .arr [.obj [("name", .str "x")], .obj [("name", .str "_x")],
      .obj [("name", .str "y")]])]])]

/-- An underscore can make the name of another method, and the key of another field. -/
theorem exists_clashing_keys :
    ∃ model cls, Model.ofJson clashingDocument = .ok model ∧ cls ∈ model.classes ∧
      (∃ field ∈ cls.fields, ∃ method ∈ cls.methods,
        (Probe.keyIn (cls.member field)).runFresh = .ok method.rawName) ∧
      ∃ field ∈ cls.fields, ∃ other ∈ cls.fields, field.rawName ≠ other.rawName ∧
        ∃ key, (Probe.keyIn (cls.member field)).runFresh = .ok key ∧
          (Probe.keyIn (cls.member other)).runFresh = .ok key := by
  let method (name : Text) : JavaMethod := ⟨name, name, [], .void, [], false⟩
  let field (name : Text) : JavaField := ⟨name, name, none⟩
  let cls : JavaClass :=
    ⟨"A", "A", [field "x", field "y", field "_y"], [method "x", method "_x", method "y"]⟩
  have loaded : Model.ofJson clashingDocument = .ok (.ofClasses [cls]) := rfl
  refine ⟨.ofClasses [cls], cls, loaded, List.mem_cons_self, ?_, ?_⟩
  · exact ⟨field "x", by decide, method "_x", by decide, rfl⟩
  · exact ⟨field "y", by decide, field "_y", by decide, by decide, "_y", rfl, rfl⟩

end JavaClass

end HookScript
