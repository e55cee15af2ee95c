import HookScript.Proofs.JavaType.Display
import Mathlib.Data.List.Forall2

/-!
# Types as arguments of overload selectors

What stands between the quotes of an argument is a descriptor, with dots between
packages, or a display form.  A bracket at the front tells the two apart, and
each of them tells the types apart that it is used for.  Only a class named like
a primitive type is selected by the same argument as that type.

Nothing is escaped in an argument, and nothing has to be: the marks that could end it,
or the selector around it, stand in no type.  So a selector tells as much of its types
as its arguments tell of each of them.
-/

namespace HookScript

theorem Text.replaceEach_of_not_mem {old : CodePoint} {text : Text} (absent : old ∉ text)
    (new : CodePoint) : text.replaceEach old new = text := by
  have kept : ∀ c ∈ text, (if c = old then new else c) = c := by
    intro c member
    refine if_neg fun same => absent ?_
    rw [← same]
    exact member
  rw [replaceEach, List.map_congr_left kept, List.map_id']

namespace JavaType

/-- What stands between the quotes. -/
def selectionName (type : JavaType) : Text :=
  if type.isArray then type.signature.replaceEach '/' '.' else type.display

theorem overloadArgument_inj {first second : JavaType} :
    first.overloadArgument = second.overloadArgument ↔
      first.selectionName = second.selectionName := by
  constructor
  · exact fun same => List.append_cancel_left (List.append_cancel_right same)
  · exact fun same => congrArg (fun name : Text => Text.ofString "'" ++ name ++ Text.ofString "'") same

/-! ## Arrays -/

theorem baseDescriptor_dotted {base : BaseType} (wellFormed : base.WellFormed) :
    BaseDescriptor (base.signature.replaceEach '/' '.') base := by
  have letters : ∀ type ∈ Primitive.all, type.descriptor.replaceEach '/' '.' = type.descriptor := by
    decide
  cases wellFormed with
  | @primitive type known =>
    change BaseDescriptor (type.descriptor.replaceEach '/' '.') _
    rw [letters type known]
    exact .letter known
  | @object name valid =>
    have noSlash : .ofChar '/' ∉ name := valid.dotted.not_mem '/' (by decide) (by decide)
    have kept : name.replaceEach '/' '.' = name := Text.replaceEach_of_not_mem noSlash '.'
    have shown : (BaseType.object name).signature.replaceEach '/' '.' = "L" ++ name ++ ";" := by
      rw [BaseType.signature, Text.replaceEach_append, Text.replaceEach_append,
        Text.replaceEach_replaceEach noSlash]
      rfl
    have derived := BaseDescriptor.named (valid.dotted.not_mem ';' (by decide) (by decide))
      (kept.symm ▸ valid)
    rw [kept] at derived
    rw [shown]
    exact derived

theorem selectionName_of_isArray {type : JavaType} (array : type.isArray = true) :
    type.selectionName =
      List.replicate type.dims (.ofChar '[') ++ type.base.signature.replaceEach '/' '.' := by
  rw [selectionName, if_pos array, signature, Text.replaceEach_append, Text.replaceEach,
    List.map_replicate]
  rfl

theorem selectionName_of_not_isArray {type : JavaType} (flat : type.isArray = false) :
    type.selectionName = type.base.display := by
  have none : type.dims = 0 := by
    rw [isArray, decide_eq_false_iff_not] at flat
    exact Nat.eq_zero_of_not_pos flat
  rw [selectionName, flat, display, none]
  exact List.append_nil _

theorem head?_selectionName {type : JavaType} (wellFormed : type.WellFormed) :
    type.selectionName.head? = some (.ofChar '[') ↔ type.isArray = true := by
  cases shape : type.isArray with
  | true =>
    obtain ⟨base, dims⟩ := type
    cases dims with
    | zero => cases shape
    | succ dims =>
      rw [selectionName_of_isArray shape]
      exact ⟨fun _ => rfl, fun _ => rfl⟩
  | false =>
    rw [selectionName_of_not_isArray shape]
    refine ⟨fun starts => ?_, nofun⟩
    have bracket := List.mem_of_mem_head? starts
    exact ((dotted_display wellFormed.base).not_mem '[' (by decide) (by decide) bracket).elim

/-! ## Telling types apart -/

/-- Types that are the same, or of which one is a primitive type and the other a
class with its name. -/
def SelectedAlike (first second : JavaType) : Prop :=
  first = second ∨ ∃ keyword ∈ Primitive.all,
    (first = primitive keyword ∧ second = object keyword.name) ∨
      (first = object keyword.name ∧ second = primitive keyword)

instance (first second : JavaType) : Decidable (SelectedAlike first second) :=
  inferInstanceAs (Decidable (_ ∨ _))

theorem SelectedAlike.selectionName {first second : JavaType} (alike : SelectedAlike first second) :
    first.selectionName = second.selectionName := by
  rcases alike with rfl | ⟨keyword, _, ⟨rfl, rfl⟩ | ⟨rfl, rfl⟩⟩ <;> rfl

theorem selectedAlike_of_display {first second : BaseType} (wellFirst : first.WellFormed)
    (wellSecond : second.WellFormed) (same : first.display = second.display) :
    SelectedAlike ⟨first, 0⟩ ⟨second, 0⟩ := by
  cases wellFirst with
  | @primitive type known =>
    cases wellSecond with
    | @primitive other known' =>
      left
      rw [Primitive.name_inj type known other known' same]
    | @object name _ =>
      have named : type.name = name := same
      exact Or.inr ⟨type, known, Or.inl ⟨rfl, congrArg object named.symm⟩⟩
  | @object name _ =>
    have named : name = second.display := same
    cases wellSecond with
    | @primitive other known => exact Or.inr ⟨other, known, Or.inr ⟨congrArg object named, rfl⟩⟩
    | object =>
      left
      rw [named]
      rfl

theorem selectionName_eq_iff {first second : JavaType} (wellFirst : first.WellFormed)
    (wellSecond : second.WellFormed) :
    first.selectionName = second.selectionName ↔ SelectedAlike first second := by
  refine ⟨fun same => ?_, SelectedAlike.selectionName⟩
  have shapes : first.isArray = second.isArray := by
    rw [Bool.eq_iff_iff, ← head?_selectionName wellFirst, ← head?_selectionName wellSecond, same]
  cases shape : second.isArray with
  | true =>
    rw [shape] at shapes
    rw [selectionName_of_isArray shapes, selectionName_of_isArray shape] at same
    have read := readDescriptor_append (baseDescriptor_dotted wellFirst.base) wellFirst.sized []
    rw [same, readDescriptor_append (baseDescriptor_dotted wellSecond.base) wellSecond.sized] at read
    exact Or.inl (Prod.mk.inj (Except.ok.inj read)).1.symm
  | false =>
    rw [shape] at shapes
    rw [selectionName_of_not_isArray shapes, selectionName_of_not_isArray shape] at same
    have alike := selectedAlike_of_display wellFirst.base wellSecond.base same
    obtain ⟨base, dims⟩ := first
    obtain ⟨other, dims'⟩ := second
    cases dims with
    | succ => cases shapes
    | zero =>
      cases dims' with
      | succ => cases shape
      | zero => exact alike

theorem overloadArgument_eq_iff {first second : JavaType} (wellFirst : first.WellFormed)
    (wellSecond : second.WellFormed) :
    first.overloadArgument = second.overloadArgument ↔ SelectedAlike first second :=
  overloadArgument_inj.trans (selectionName_eq_iff wellFirst wellSecond)

/-! ## Code points -/

theorem mem_selectionName {type : JavaType} (wellFormed : type.WellFormed) {c : CodePoint}
    (member : c ∈ type.selectionName) :
    c ∈ Text.ofString "[.;" ∨ isNameCodePoint c = true := by
  cases shape : type.isArray with
  | true =>
    rw [selectionName, if_pos shape] at member
    rcases List.mem_map.mp member with ⟨d, inside, rfl⟩
    rcases mem_signature wellFormed inside with rfl | rfl | rfl | name
    · exact Or.inl (by decide)
    · exact Or.inl (by decide)
    · exact Or.inl (by decide)
    · by_cases slash : d = .ofChar '/'
      · rw [if_pos slash]
        exact Or.inl (by decide)
      · rw [if_neg slash]
        exact Or.inr name
  | false =>
    rw [selectionName_of_not_isArray shape] at member
    rcases dotted_display wellFormed.base c member with rfl | name
    · exact Or.inl (by decide)
    · exact Or.inr name

/-- The marks of arguments, quotes included. -/
def overloadMarks : Text := "'[.;"

theorem mem_overloadArgument {type : JavaType} (wellFormed : type.WellFormed) {c : CodePoint}
    (member : c ∈ type.overloadArgument) : c ∈ overloadMarks ∨ isNameCodePoint c = true := by
  have marks : ∀ c ∈ Text.ofString "[.;", c ∈ overloadMarks := by decide
  have quote : ∀ c ∈ Text.ofString "'", c ∈ overloadMarks := by decide
  rcases List.mem_append.mp member with before | closing
  · rcases List.mem_append.mp before with opening | inside
    · exact Or.inl (quote c opening)
    · exact (mem_selectionName wellFormed inside).imp_left (marks c)
  · exact Or.inl (quote c closing)

theorem overloadArgument_ne_nil (type : JavaType) : type.overloadArgument ≠ [] := nofun

/-- A mark that is not among those of arguments, and stands in no name. -/
theorem not_mem_overloadArgument {type : JavaType} (wellFormed : type.WellFormed)
    {mark : CodePoint} (other : mark ∉ overloadMarks) (noName : isNameCodePoint mark = false) :
    mark ∉ type.overloadArgument := by
  intro member
  rcases mem_overloadArgument wellFormed member with found | name
  · exact other found
  · exact Bool.false_ne_true (noName.symm.trans name)

/-- The marks that end an argument or a selector, or escape what follows them. -/
def closingMarks : Text := "'\x22\x60\\,()"

theorem clean_selectionName {type : JavaType} (wellFormed : type.WellFormed) {c : CodePoint}
    (member : c ∈ type.selectionName) : c ∉ closingMarks ∧ c.isBlank = false := by
  have marks : ∀ mark ∈ Text.ofString "[.;", mark ∉ closingMarks ∧ mark.isBlank = false := by decide
  have noName : ∀ mark ∈ closingMarks, isNameCodePoint mark = false := by decide
  rcases mem_selectionName wellFormed member with mark | name
  · exact marks c mark
  · refine ⟨fun closing => ?_, isBlank_of_isNameCodePoint name⟩
    exact Bool.false_ne_true ((noName c closing).symm.trans name)

/-! ## Lists of types -/

theorem map_overloadArgument_eq_iff {first second : List JavaType}
    (wellFirst : ∀ type ∈ first, type.WellFormed) (wellSecond : ∀ type ∈ second, type.WellFormed) :
    first.map overloadArgument = second.map overloadArgument ↔
      List.Forall₂ SelectedAlike first second := by
  induction first generalizing second with
  | nil =>
    cases second with
    | nil => exact ⟨fun _ => .nil, fun _ => rfl⟩
    | cons => exact ⟨nofun, nofun⟩
  | cons type first ih =>
    cases second with
    | nil => exact ⟨nofun, nofun⟩
    | cons other second =>
      rcases List.forall_mem_cons.mp wellFirst with ⟨well, wellRest⟩
      rcases List.forall_mem_cons.mp wellSecond with ⟨well', wellRest'⟩
      rw [List.map_cons, List.map_cons, List.cons.injEq, List.forall₂_cons,
        overloadArgument_eq_iff well well', ih wellRest wellRest']

/-- What selects an overload by the types of its arguments. -/
def selector (types : List JavaType) : Text :=
  ".overload(" ++ List.intercalate ", " (types.map overloadArgument) ++ ")"

theorem selector_eq_iff {first second : List JavaType}
    (wellFirst : ∀ type ∈ first, type.WellFormed) (wellSecond : ∀ type ∈ second, type.WellFormed) :
    selector first = selector second ↔ List.Forall₂ SelectedAlike first second := by
  have fresh : ∀ {types : List JavaType}, (∀ type ∈ types, type.WellFormed) →
      ∀ argument ∈ types.map overloadArgument, argument ≠ [] ∧ .ofChar ',' ∉ argument := by
    intro types wellFormed argument listed
    rcases List.mem_map.mp listed with ⟨type, inTypes, rfl⟩
    exact ⟨type.overloadArgument_ne_nil,
      not_mem_overloadArgument (wellFormed type inTypes) (by decide) (by decide)⟩
  rw [← map_overloadArgument_eq_iff wellFirst wellSecond]
  constructor
  · intro same
    have listing := List.append_cancel_left (List.append_cancel_right same)
    exact Text.intercalate_inj (by decide : .ofChar ',' ∉ Text.ofString " ") (fresh wellFirst)
      (fresh wellSecond) listing
  · intro same
    rw [selector, selector, same]

end JavaType

end HookScript
