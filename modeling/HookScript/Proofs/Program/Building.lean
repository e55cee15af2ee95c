import HookScript.Program.Assembly

/-!
# Building assemblies

Classes, fields and methods are made, and then added to each other in any order.  A
member may be added to several classes, to one class several times, or to none.  So
the owner of a member need not be the class in whose list it is found.

But a listed member always has an owner, since adding it to a list makes the class of
the list its owner, and an owner is only ever replaced by another one.  This, and that the
methods have identities, is the invariant `Sound`; `Built.sound` follows it through
every way of building.
-/

namespace HookScript

/-- An owner whose methods all have identities. -/
def Owner.Identified (owner : Owner) : Prop := ∀ method ∈ owner.methods, method.hasIdentity = true

/-- A member that has an owner, whose methods all have identities. -/
def Member.Grounded {α : Type} (member : Member α) : Prop :=
  ∃ owner, member.owner? = some owner ∧ owner.Identified

namespace Assembly

variable {assembly after : Assembly}

/-! ## Classes that have been made -/

theorem length_classes_addField (assembly : Assembly) (cls : ClassId) (field : FieldId) :
    (assembly.addField cls field).classes.length = assembly.classes.length :=
  List.length_modify ..

theorem length_classes_addMethod (assembly : Assembly) (cls : ClassId) (method : MethodId) :
    (assembly.addMethod cls method).classes.length = assembly.classes.length :=
  List.length_modify ..

theorem exists_owner? {id : ClassId} (made : id.index < assembly.classes.length) :
    ∃ owner, assembly.owner? id = some owner := by
  rw [owner?, List.getElem?_eq_getElem made]
  exact ⟨_, rfl⟩

/-! ## Steps -/

/-- One step of building.  All types of a method are specified, and a member and a class
have been made before one is added to the other. -/
inductive Step (assembly : Assembly) : Assembly → Prop where
  | makeClass (rawName aliasName : Text) : Step assembly (assembly.makeClass rawName aliasName).1
  | makeField (field : JavaField) : Step assembly (assembly.makeField field).1
  | makeMethod {method : JavaMethod} (identified : method.hasIdentity = true) :
    Step assembly (assembly.makeMethod method).1
  | addField {cls : ClassId} {field : FieldId} (madeClass : cls.index < assembly.classes.length)
      (madeField : field.index < assembly.fields.length) :
    Step assembly (assembly.addField cls field)
  | addMethod {cls : ClassId} {method : MethodId}
      (madeClass : cls.index < assembly.classes.length)
      (madeMethod : method.index < assembly.methods.length) :
    Step assembly (assembly.addMethod cls method)

/-- The assemblies that can be built. -/
inductive Built : Assembly → Prop where
  | empty : Built .empty
  | step {assembly after : Assembly} (built : Built assembly) (step : assembly.Step after) :
    Built after

/-! ## Members with owners -/

/-- Members of which the listed ones have owners, and all owners are among so many
classes. -/
structure Owned {α : Type} (classCount : Nat) (members : List (AssembledMember α))
    (listed : Nat → Prop) : Prop where
  owners : ∀ member ∈ members, ∀ id ∈ member.ownerId?, id.index < classCount
  listed : ∀ index, listed index →
    ∃ member, members[index]? = some member ∧ member.ownerId?.isSome = true

section Owned

variable {α : Type} {members : List (AssembledMember α)} {classCount : Nat}
  {listed listed' : Nat → Prop}

theorem exists_of_mem_modify {β : Type} {values : List β} {index : Nat} {change : β → β} {value : β}
    (listed : value ∈ values.modify index change) :
    value ∈ values ∨ ∃ old ∈ values, value = change old := by
  rcases List.mem_iff_getElem?.mp listed with ⟨place, found⟩
  rw [List.getElem?_modify] at found
  rcases Option.map_eq_some_iff.mp found with ⟨old, there, rfl⟩
  have member := List.mem_of_getElem? there
  by_cases here : index = place
  · rw [if_pos here]
    exact Or.inr ⟨old, member, rfl⟩
  · rw [if_neg here]
    exact Or.inl member

theorem Owned.mono (owned : Owned classCount members listed) {more : Nat} (atLeast : classCount ≤ more)
    (fewer : ∀ index, listed' index → listed index) : Owned more members listed' where
  owners member inMembers id owns := Nat.lt_of_lt_of_le (owned.owners member inMembers id owns) atLeast
  listed index isListed := owned.listed index (fewer index isListed)

/-- A new member has no owner, and is not listed. -/
theorem Owned.append (owned : Owned classCount members listed) (item : α) :
    Owned classCount (members ++ [⟨item, none⟩]) listed := by
  constructor
  · refine List.forall_mem_append.mpr ⟨owned.owners, ?_⟩
    exact List.forall_mem_singleton.mpr nofun
  · intro index isListed
    rcases owned.listed index isListed with ⟨member, found, hasOwner⟩
    have bound := (List.getElem?_eq_some_iff.mp found).1
    exact ⟨member, (List.getElem?_append_left bound).trans found, hasOwner⟩

/-- A member that gets an owner may be listed. -/
theorem Owned.own (owned : Owned classCount members listed) {owner : ClassId} {place : Nat}
    (madeOwner : owner.index < classCount) (made : place < members.length)
    (fewer : ∀ index, listed' index → listed index ∨ index = place) :
    Owned classCount (members.modify place fun member => { member with ownerId? := some owner })
      listed' := by
  constructor
  · intro member inMembers id owns
    rcases exists_of_mem_modify inMembers with old | ⟨old, _, rfl⟩
    · exact owned.owners member old id owns
    · cases owns
      exact madeOwner
  · intro index isListed
    rw [List.getElem?_modify]
    by_cases here : place = index
    · subst here
      rw [List.getElem?_eq_getElem made]
      simp only [if_true, Option.map_eq_map, Option.map_some]
      exact ⟨_, rfl, rfl⟩
    · rcases owned.listed index ((fewer index isListed).resolve_right (Ne.symm here)) with
        ⟨member, found, hasOwner⟩
      rw [found]
      simp only [if_neg here, Option.map_eq_map, Option.map_some]
      exact ⟨member, rfl, hasOwner⟩

end Owned

/-! ## Lists of members -/

/-- Whether one of some classes lists a member. -/
def Lists {ι : Type} (classes : List AssembledClass) (members : AssembledClass → List ι) (id : ι) :
    Prop :=
  ∃ cls ∈ classes, id ∈ members cls

section Lists

variable {ι : Type} {classes : List AssembledClass} {members : AssembledClass → List ι} {id : ι}

theorem lists_append {cls : AssembledClass} (lists : Lists (classes ++ [cls]) members id) :
    Lists classes members id ∨ id ∈ members cls := by
  rcases lists with ⟨other, inClasses, listed⟩
  rcases List.mem_append.mp inClasses with old | new
  · exact Or.inl ⟨other, old, listed⟩
  · rw [List.mem_singleton.mp new] at listed
    exact Or.inr listed

theorem lists_modify {place : Nat} {change : AssembledClass → AssembledClass} {added : List ι}
    (lists : Lists (classes.modify place change) members id)
    (adds : ∀ cls, members (change cls) = members cls ++ added) :
    Lists classes members id ∨ id ∈ added := by
  rcases lists with ⟨other, inClasses, listed⟩
  rcases exists_of_mem_modify inClasses with old | ⟨old, inOld, rfl⟩
  · exact Or.inl ⟨other, old, listed⟩
  · rw [adds, List.mem_append] at listed
    exact listed.imp_left fun before => ⟨old, inOld, before⟩

end Lists

/-! ## The invariant -/

/-- Listed members have owners, and methods have identities. -/
structure Sound (assembly : Assembly) : Prop where
  fields : Owned assembly.classes.length assembly.fields
    fun index => Lists assembly.classes AssembledClass.fields ⟨index⟩
  methods : Owned assembly.classes.length assembly.methods
    fun index => Lists assembly.classes AssembledClass.methods ⟨index⟩
  identified : ∀ method ∈ assembly.methods, method.item.hasIdentity = true

theorem sound_empty : Sound .empty :=
  ⟨⟨nofun, nofun⟩, ⟨nofun, nofun⟩, nofun⟩

theorem Sound.step (sound : assembly.Sound) (step : assembly.Step after) : after.Sound := by
  cases step with
  | makeClass rawName aliasName =>
    have more : assembly.classes.length ≤ (assembly.makeClass rawName aliasName).1.classes.length := by
      simp only [Assembly.makeClass, List.length_append, Nat.le_add_right]
    refine ⟨sound.fields.mono more ?_, sound.methods.mono more ?_, sound.identified⟩
    · exact fun index lists => (lists_append lists).resolve_right List.not_mem_nil
    · exact fun index lists => (lists_append lists).resolve_right List.not_mem_nil
  | makeField field => exact ⟨sound.fields.append field, sound.methods, sound.identified⟩
  | @makeMethod method identified =>
    refine ⟨sound.fields, sound.methods.append method, ?_⟩
    exact List.forall_mem_append.mpr
      ⟨sound.identified, List.forall_mem_singleton.mpr identified⟩
  | @addField cls field madeClass madeField =>
    have count := assembly.length_classes_addField cls field
    refine ⟨?_, ?_, sound.identified⟩
    · rw [count]
      refine sound.fields.own madeClass madeField fun index lists => ?_
      have added : Lists assembly.classes AssembledClass.fields ⟨index⟩ ∨ ⟨index⟩ ∈ [field] :=
        lists_modify lists fun _ => rfl
      exact added.imp_right fun new => congrArg FieldId.index (List.mem_singleton.mp new)
    · refine sound.methods.mono (Nat.le_of_eq count.symm) fun index lists => ?_
      exact (lists_modify lists fun cls => (List.append_nil cls.methods).symm).resolve_right
        List.not_mem_nil
  | @addMethod cls method madeClass madeMethod =>
    have count := assembly.length_classes_addMethod cls method
    refine ⟨?_, ?_, ?_⟩
    · refine sound.fields.mono (Nat.le_of_eq count.symm) fun index lists => ?_
      exact (lists_modify lists fun cls => (List.append_nil cls.fields).symm).resolve_right
        List.not_mem_nil
    · rw [count]
      refine sound.methods.own madeClass madeMethod fun index lists => ?_
      have added : Lists assembly.classes AssembledClass.methods ⟨index⟩ ∨ ⟨index⟩ ∈ [method] :=
        lists_modify lists fun _ => rfl
      exact added.imp_right fun new => congrArg MethodId.index (List.mem_singleton.mp new)
    · intro other inMethods
      rcases exists_of_mem_modify inMethods with old | ⟨old, inOld, rfl⟩
      · exact sound.identified other old
      · exact sound.identified old inOld

theorem Built.sound (built : assembly.Built) : assembly.Sound := by
  induction built with
  | empty => exact sound_empty
  | step _ step ih => exact ih.step step

/-! ## What is seen of a sound assembly -/

namespace Sound

theorem identified_of_getElem? (sound : assembly.Sound) {index : Nat}
    {method : AssembledMember JavaMethod} (found : assembly.methods[index]? = some method) :
    method.item.hasIdentity = true :=
  sound.identified method (List.mem_of_getElem? found)

theorem identified_owner (sound : assembly.Sound) {id : ClassId} {owner : Owner}
    (found : assembly.owner? id = some owner) : owner.Identified := by
  rcases Option.map_eq_some_iff.mp found with ⟨cls, _, rfl⟩
  intro method listed
  rcases List.mem_filterMap.mp listed with ⟨methodId, _, found⟩
  rcases Option.map_eq_some_iff.mp found with ⟨member, there, rfl⟩
  exact sound.identified_of_getElem? there

theorem grounded_of_owner? (sound : assembly.Sound) {α : Type} {member : AssembledMember α}
    {owner : Owner} (owned : (assembly.member member).owner? = some owner) :
    (assembly.member member).Grounded := by
  rcases Option.bind_eq_some_iff.mp owned with ⟨id, _, found⟩
  exact ⟨owner, owned, sound.identified_owner found⟩

/-- Listed members have owners, whichever classes these are. -/
theorem grounded_of_listed (sound : assembly.Sound) {α : Type} {members : List (AssembledMember α)}
    {listed : Nat → Prop} (owned : Owned assembly.classes.length members listed) {index : Nat}
    (isListed : listed index) {member : AssembledMember α} (found : members[index]? = some member) :
    (assembly.member member).Grounded := by
  rcases owned.listed index isListed with ⟨same, found', hasOwner⟩
  cases found.symm.trans found'
  rcases Option.isSome_iff_exists.mp hasOwner with ⟨id, owns⟩
  rcases exists_owner? (owned.owners member (List.mem_of_getElem? found) id owns) with
    ⟨owner, there⟩
  apply sound.grounded_of_owner?
  rw [Assembly.member, owns]
  exact there

theorem grounded_field (sound : assembly.Sound) {id : ClassId} {view : ClassView}
    (found : assembly.view? id = some view) : ∀ field ∈ view.fields, field.Grounded := by
  rcases Option.map_eq_some_iff.mp found with ⟨cls, there, rfl⟩
  intro field listed
  rcases List.mem_filterMap.mp listed with ⟨fieldId, lists, found⟩
  rcases Option.map_eq_some_iff.mp found with ⟨member, made, rfl⟩
  exact sound.grounded_of_listed sound.fields ⟨cls, List.mem_of_getElem? there, lists⟩ made

theorem grounded_method (sound : assembly.Sound) {id : ClassId} {view : ClassView}
    (found : assembly.view? id = some view) :
    ∀ method ∈ view.methods, method.Grounded ∧ method.item.hasIdentity = true := by
  rcases Option.map_eq_some_iff.mp found with ⟨cls, there, rfl⟩
  intro method listed
  rcases List.mem_filterMap.mp listed with ⟨methodId, lists, found⟩
  rcases Option.map_eq_some_iff.mp found with ⟨member, made, rfl⟩
  exact ⟨sound.grounded_of_listed sound.methods ⟨cls, List.mem_of_getElem? there, lists⟩ made,
    sound.identified_of_getElem? made⟩

end Sound

end Assembly

end HookScript
