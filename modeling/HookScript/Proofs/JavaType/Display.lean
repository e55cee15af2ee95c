import HookScript.Proofs.JavaType.Signature

/-!
# Reading the display form

The display form of a type is its source form, and reading it gives the type back
with two exceptions.  A class may be named like a primitive type, since
descriptors can name it; its display form, and that of an array of it, means the
primitive type.  A class may also be named by a descriptor letter; its display
form is that letter, unless brackets follow it.

In both cases the display form means the primitive type, with as many dimensions.
Only there is no array of void, so arrays of a class named `void` have a display form
that means nothing.
-/

namespace HookScript.JavaType

/-- A type whose display form means something else: its base is a class named
like a primitive type, or it is itself a class named by a descriptor letter. -/
def Ambiguous (type : JavaType) : Prop :=
  (∃ keyword ∈ Primitive.all, type.base = .object keyword.name) ∨
    (type.dims = 0 ∧ ∃ letter ∈ Primitive.all, type.base = .object letter.descriptor)

instance : DecidablePred Ambiguous := fun _ => inferInstanceAs (Decidable (_ ∨ _))

theorem brackets_replicate (dims : Nat) :
    Brackets dims (List.replicate dims (Text.ofString "[]")).flatten := by
  induction dims with
  | zero => exact .none
  | succ dims ih =>
    have pair : Brackets (dims + 1)
        ((List.replicate dims (Text.ofString "[]")).flatten ++ [] ++ Text.ofString "[]") :=
      .pair ih rfl
    rw [List.append_nil] at pair
    rw [List.replicate_succ', List.flatten_append, List.flatten_singleton]
    exact pair

theorem mem_brackets {dims : Nat} {c : CodePoint}
    (member : c ∈ (List.replicate dims (Text.ofString "[]")).flatten) :
    c ∈ Text.ofString "[]" := by
  rcases List.mem_flatten.mp member with ⟨pair, listed, inside⟩
  rw [(List.mem_replicate.mp listed).2] at inside
  exact inside

theorem dotted_display {base : BaseType} (wellFormed : base.WellFormed) : Dotted base.display := by
  cases wellFormed with
  | @primitive type known => exact (Primitive.binaryName_name type known).dotted
  | object valid => exact valid.dotted

theorem trim_display {type : JavaType} (wellFormed : type.WellFormed) :
    type.display.trim = type.display := by
  have visible : ∀ c ∈ Text.ofString "[]", c.isBlank = false := by decide
  apply Text.trim_of_forall
  intro c member
  rcases List.mem_append.mp member with inBase | inBrackets
  · exact (dotted_display wellFormed.base).isBlank inBase
  · exact visible c (mem_brackets inBrackets)

/-- The name of a primitive type is longer than its descriptor, so a name that is
followed by brackets or means a primitive type is no descriptor letter. -/
theorem descriptor_ne_name : ∀ type ∈ Primitive.all, ∀ letter ∈ Primitive.all,
    letter.descriptor ≠ type.name := by decide

theorem baseName_display {type : JavaType} (wellFormed : type.WellFormed)
    (clear : ¬type.Ambiguous) : BaseName type.base.display type.base := by
  obtain ⟨base, dims⟩ := type
  cases wellFormed.base with
  | primitive known => exact .keyword known
  | object valid =>
    refine .named valid ?_
    intro keyword known same
    exact clear (Or.inl ⟨keyword, known, congrArg BaseType.object same.symm⟩)

/-- Brackets make a text too long for a descriptor letter. -/
theorem descriptor_ne_display_of_isArray {type : JavaType} (array : type.isArray = true) :
    ∀ letter ∈ Primitive.all, letter.descriptor ≠ type.display := by
  intro letter known same
  obtain ⟨base, dims⟩ := type
  cases dims with
  | zero => cases array
  | succ dims =>
    rcases Primitive.descriptor_eq_singleton letter known with ⟨c, descriptor, _, _⟩
    have lengths := congrArg List.length (descriptor.symm.trans same)
    simp only [display, List.replicate_succ, List.flatten_cons, List.length_append,
      List.length_singleton, show (Text.ofString "[]").length = 2 from rfl] at lengths
    omega

theorem noLetter_display {type : JavaType} (wellFormed : type.WellFormed)
    (clear : ¬type.Ambiguous) : ∀ letter ∈ Primitive.all, letter.descriptor ≠ type.display := by
  intro letter known same
  obtain ⟨base, dims⟩ := type
  cases dims with
  | succ dims => exact descriptor_ne_display_of_isArray rfl letter known same
  | zero =>
    rw [display, List.replicate_zero, List.flatten_nil, List.append_nil] at same
    cases wellFormed.base with
    | @primitive type listed => exact descriptor_ne_name type listed letter known same
    | object valid =>
      exact clear (Or.inr ⟨rfl, letter, known, congrArg BaseType.object same.symm⟩)

theorem denotes_display {type : JavaType} (wellFormed : type.WellFormed)
    (clear : ¬type.Ambiguous) : Denotes type.display type :=
  .source (baseName_display wellFormed clear) (brackets_replicate type.dims) wellFormed.sized
    (noLetter_display wellFormed clear)

theorem semicolon_not_mem_display {type : JavaType} (wellFormed : type.WellFormed) :
    .ofChar ';' ∉ type.display := by
  intro member
  rcases List.mem_append.mp member with inBase | inBrackets
  · exact (dotted_display wellFormed.base).not_mem ';' (by decide) (by decide) inBase
  · exact absurd (mem_brackets inBrackets) (by decide)

/-- An ambiguous display form has no derivation that gives its own type.  The
descriptor of a class would need a semicolon, and the source form refuses just
the ambiguous names. -/
theorem not_denotes_display {type : JavaType} (wellFormed : type.WellFormed)
    (ambiguous : type.Ambiguous) : ¬Denotes type.display type := by
  intro derived
  have noSemicolon := semicolon_not_mem_display wellFormed
  generalize type.display = shown at derived noSemicolon
  cases derived with
  | descriptor written _ =>
    cases written with
    | letter =>
      rcases ambiguous with ⟨_, _, impossible⟩ | ⟨_, _, _, impossible⟩
      · cases impossible
      · cases impossible
    | named =>
      apply noSemicolon
      exact List.mem_append_right _ (List.mem_append_right _ List.mem_cons_self)
  | source written paired _ noLetter =>
    cases written with
    | keyword =>
      rcases ambiguous with ⟨_, _, impossible⟩ | ⟨_, _, _, impossible⟩
      · cases impossible
      · cases impossible
    | named _ free =>
      rcases ambiguous with ⟨keyword, known, same⟩ | ⟨flat, letter, known, same⟩
      · exact free keyword known (BaseType.object.inj same).symm
      · cases flat
        cases paired
        rw [List.append_nil] at noLetter
        exact noLetter letter known (BaseType.object.inj same).symm

/-- Exactly the unambiguous types are read back from their display form. -/
theorem parse_display_iff {type : JavaType} (wellFormed : type.WellFormed) :
    parse type.display = .ok type ↔ ¬type.Ambiguous := by
  rw [parse_eq_ok_iff, trim_display wellFormed]
  constructor
  · intro derived ambiguous
    exact not_denotes_display wellFormed ambiguous derived
  · exact denotes_display wellFormed

/-! ## What ambiguous display forms mean -/

/-- An array of a class that is named like the type without values. -/
def IsArrayOfVoidClass (type : JavaType) : Prop :=
  type.isArray = true ∧ type.base = .object Primitive.void.name

/-- The display form of a class named like a primitive type, and that of an array of it, is the
display form of the primitive type. -/
theorem parse_display_keyword {keyword : Primitive} (known : keyword ∈ Primitive.all) {dims : Nat}
    (sized : Sized (.primitive keyword) dims) :
    parse (display ⟨.object keyword.name, dims⟩) = .ok ⟨.primitive keyword, dims⟩ := by
  have clear : ¬Ambiguous ⟨.primitive keyword, dims⟩ := by
    rintro (⟨_, _, impossible⟩ | ⟨_, _, _, impossible⟩)
    · cases impossible
    · cases impossible
  exact (parse_display_iff ⟨.primitive known, sized⟩).mpr clear

/-- The display form of a class named by a descriptor letter is the signature of the primitive
type. -/
theorem parse_display_letter {letter : Primitive} (known : letter ∈ Primitive.all) :
    parse (object letter.descriptor).display = .ok (primitive letter) := by
  have shown : (object letter.descriptor).display = (primitive letter).signature :=
    List.append_nil letter.descriptor
  rw [shown]
  exact parse_signature ⟨.primitive known, fun _ => rfl⟩

theorem ofTrimmed_void {brackets : Text} {dims : Nat} (paired : Brackets (dims + 1) brackets)
    (noLetter : ∀ letter ∈ Primitive.all, letter.descriptor ≠ Primitive.void.name ++ brackets) :
    ofTrimmed (Primitive.void.name ++ brackets) = .error .arrayOfVoid := by
  have keyword : BaseName Primitive.void.name (.primitive .void) := .keyword (by decide)
  have counted := takeBrackets_append paired (takeBrackets_baseName keyword) [] rfl
  rw [List.append_nil] at counted
  rw [ofTrimmed, if_neg (List.append_ne_nil_of_left_ne_nil keyword.ne_nil _),
    if_neg (not_looksLikeDescriptor_of_baseName keyword paired noLetter), ofSource, counted]
  rfl

theorem parse_display_of_isArrayOfVoidClass {type : JavaType} (wellFormed : type.WellFormed)
    (isArrayOfVoidClass : type.IsArrayOfVoidClass) :
    parse type.display = .error ⟨.arrayOfVoid, type.display⟩ := by
  rcases isArrayOfVoidClass with ⟨array, named⟩
  have noLetter := descriptor_ne_display_of_isArray array
  have trimmed := trim_display wellFormed
  obtain ⟨base, dims⟩ := type
  cases named
  cases dims with
  | zero => cases array
  | succ dims =>
    have failed : ofTrimmed (display ⟨.object Primitive.void.name, dims + 1⟩) =
        .error .arrayOfVoid := ofTrimmed_void (brackets_replicate (dims + 1)) noLetter
    rw [parse, trimmed, failed]

/-- What an ambiguous type is taken for, if not for an array of void. -/
theorem Ambiguous.exists_parse_display {type : JavaType} (ambiguous : type.Ambiguous)
    (sized : ¬type.IsArrayOfVoidClass) :
    ∃ other ∈ Primitive.all, type.base ≠ .primitive other ∧
      parse type.display = .ok ⟨.primitive other, type.dims⟩ := by
  obtain ⟨base, dims⟩ := type
  rcases ambiguous with ⟨keyword, known, named⟩ | ⟨flat, letter, known, named⟩
  · cases named
    refine ⟨keyword, known, nofun, parse_display_keyword known ?_⟩
    intro isVoid
    cases isVoid
    exact Nat.eq_zero_of_not_pos fun array => sized ⟨decide_eq_true array, rfl⟩
  · cases named
    cases flat
    exact ⟨letter, known, nofun, parse_display_letter known⟩

/-- Of the types that were read from some text, exactly the ambiguous ones are not read back
from their display form.  The display form of an ambiguous type is an error exactly if the
type is an array of a class named `void`, and otherwise means a primitive type or an array
of one in its place. -/
theorem display_reads_back_iff {text : Text} {type : JavaType} (read : parse text = .ok type) :
    (parse type.display = .ok type ↔ ¬type.Ambiguous) ∧
      (type.Ambiguous →
        (type.IsArrayOfVoidClass ∧ parse type.display = .error ⟨.arrayOfVoid, type.display⟩) ∨
          (¬type.IsArrayOfVoidClass ∧ ∃ other, other ≠ type ∧ parse type.display = .ok other ∧
            ∃ keyword ∈ Primitive.all, other = ⟨.primitive keyword, type.dims⟩)) := by
  have wellFormed := wellFormed_of_parse read
  refine ⟨parse_display_iff wellFormed, fun ambiguous => ?_⟩
  by_cases isArrayOfVoidClass : type.IsArrayOfVoidClass
  · exact Or.inl ⟨isArrayOfVoidClass,
      parse_display_of_isArrayOfVoidClass wellFormed isArrayOfVoidClass⟩
  · right
    rcases ambiguous.exists_parse_display isArrayOfVoidClass with ⟨keyword, known, apart, shown⟩
    refine ⟨isArrayOfVoidClass, ⟨.primitive keyword, type.dims⟩, ?_, shown, keyword, known, rfl⟩
    intro same
    exact apart (congrArg JavaType.base same).symm

/-- A class named by a descriptor letter, arrays of it, and arrays of classes named like
primitive types. -/
theorem display_reads_back_iff_lookalikes :
    parse (object "I").display ≠ .ok (object "I") ∧
      parse (display ⟨.object "I", 1⟩) = .ok ⟨.object "I", 1⟩ ∧
      parse (display ⟨.object "int", 1⟩) ≠ .ok ⟨.object "int", 1⟩ ∧
      parse (display ⟨.object "void", 2⟩) = .error ⟨.arrayOfVoid, "void[][]"⟩ := by
  have letter : parse "LI;" = .ok (object "I") := rfl
  have letters : parse "[LI;" = .ok ⟨.object "I", 1⟩ := rfl
  have numbers : parse "[Lint;" = .ok ⟨.object "int", 1⟩ := rfl
  have nothings : parse "[[Lvoid;" = .ok ⟨.object "void", 2⟩ := rfl
  refine ⟨?_, (display_reads_back_iff letters).1.mpr (by decide), ?_, ?_⟩
  · exact fun same => (display_reads_back_iff letter).1.mp same (by decide)
  · exact fun same => (display_reads_back_iff numbers).1.mp same (by decide)
  · rcases (display_reads_back_iff nothings).2 (by decide) with ⟨_, failed⟩ | ⟨sized, _⟩
    · exact failed
    · exact (sized ⟨rfl, rfl⟩).elim

end HookScript.JavaType
