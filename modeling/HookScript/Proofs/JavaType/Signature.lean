import HookScript.Proofs.JavaType.Reading

/-!
# Signatures are codes

The types that some text denotes are the well-formed ones: primitive types of
the table and classes with binary names, and arrays of these that are not arrays
of void.  The signature of a well-formed type is a descriptor that denotes it.
Since reading a descriptor stops where the descriptor stops, signatures can be
written one after the other without anything between them and still be told
apart.

A signature has no blanks at its ends, so it may also be read on its own: whatever
text a type was read from, its signature is another text for the same type.
-/

namespace HookScript

/-- A base that is in the table or has a binary name. -/
inductive BaseType.WellFormed : BaseType → Prop where
  | primitive {type : Primitive} (known : type ∈ Primitive.all) : WellFormed (.primitive type)
  | object {name : Text} (valid : BinaryName name) : WellFormed (.object name)

namespace JavaType

/-- A primitive type of the table, a class with a binary name, or an array of
these, but never an array of void. -/
structure WellFormed (type : JavaType) : Prop where
  base : type.base.WellFormed
  sized : Sized type.base type.dims

theorem BaseDescriptor.wellFormed {written : Text} {base : BaseType}
    (derived : BaseDescriptor written base) : base.WellFormed := by
  cases derived with
  | letter known => exact .primitive known
  | named _ valid => exact .object valid

theorem BaseName.wellFormed {name : Text} {base : BaseType} (written : BaseName name base) :
    base.WellFormed := by
  cases written with
  | keyword known => exact .primitive known
  | named valid _ => exact .object valid

theorem Denotes.wellFormed {text : Text} {type : JavaType} (derived : Denotes text type) :
    type.WellFormed := by
  cases derived with
  | descriptor written sized => exact ⟨written.wellFormed, sized⟩
  | source written _ sized _ => exact ⟨written.wellFormed, sized⟩

theorem wellFormed_of_parse {text : Text} {type : JavaType} (read : parse text = .ok type) :
    type.WellFormed :=
  (parse_eq_ok_iff.mp read).wellFormed

/-- A well-formed type is not left unspecified. -/
theorem WellFormed.hasSignature {type : JavaType} (wellFormed : type.WellFormed) :
    type.hasSignature = true := by
  rw [JavaType.hasSignature, decide_eq_true_eq]
  intro unspecified
  have base := wellFormed.base
  rw [unspecified] at base
  cases base

/-! ## The descriptor of a type -/

/-- With slashes between the packages a name has no mark but the slash. -/
theorem mem_slashed {name : Text} (valid : BinaryName name) {c : CodePoint}
    (member : c ∈ name.replaceEach '.' '/') : c = '/' ∨ isNameCodePoint c = true := by
  rcases List.mem_map.mp member with ⟨d, inside, replaced⟩
  by_cases dot : d = '.'
  · rw [if_pos dot] at replaced
    exact Or.inl replaced.symm
  · rw [if_neg dot] at replaced
    subst replaced
    exact Or.inr ((valid.dotted d inside).resolve_left dot)

theorem baseDescriptor_signature {base : BaseType} (wellFormed : base.WellFormed) :
    BaseDescriptor base.signature base := by
  cases wellFormed with
  | primitive known => exact .letter known
  | @object name valid =>
    have back : (name.replaceEach '.' '/').replaceEach '/' '.' = name :=
      Text.replaceEach_replaceEach (valid.dotted.not_mem '/' (by decide) (by decide))
    have unended : .ofChar ';' ∉ name.replaceEach '.' '/' := by
      intro member
      rcases mem_slashed valid member with slash | inName
      · exact absurd slash (by decide)
      · exact absurd inName (by decide)
    have derived := BaseDescriptor.named unended (back.symm ▸ valid)
    rw [back] at derived
    exact derived

theorem denotes_signature {type : JavaType} (wellFormed : type.WellFormed) :
    Denotes type.signature type :=
  .descriptor (baseDescriptor_signature wellFormed.base) wellFormed.sized

theorem readDescriptor_signature {type : JavaType} (wellFormed : type.WellFormed) (after : Text) :
    readDescriptor (type.signature ++ after) = .ok (type, after) :=
  readDescriptor_append (baseDescriptor_signature wellFormed.base) wellFormed.sized after

/-- A signature holds brackets, slashes, semicolons and code points of names. -/
theorem mem_signature {type : JavaType} (wellFormed : type.WellFormed) {c : CodePoint}
    (member : c ∈ type.signature) :
    c = '[' ∨ c = '/' ∨ c = ';' ∨ isNameCodePoint c = true := by
  have letters : ∀ type ∈ Primitive.all, ∀ c ∈ type.descriptor, isNameCodePoint c = true := by
    decide
  obtain ⟨base, dims⟩ := type
  rcases List.mem_append.mp member with bracket | inBase
  · exact Or.inl (List.mem_replicate.mp bracket).2
  · right
    cases wellFormed.base with
    | @primitive type known => exact Or.inr (Or.inr (letters type known c inBase))
    | @object name valid =>
      rcases List.mem_append.mp inBase with before | semicolon
      · rcases List.mem_append.mp before with letter | inName
        · have isL : c = .ofChar 'L' := List.mem_singleton.mp letter
          subst isL
          exact Or.inr (Or.inr (by decide))
        · rcases mem_slashed valid inName with slash | inName
          · exact Or.inl slash
          · exact Or.inr (Or.inr inName)
      · exact Or.inr (Or.inl (List.mem_singleton.mp semicolon))

/-! ## Telling signatures apart -/

theorem signature_ne_nil {type : JavaType} (wellFormed : type.WellFormed) :
    type.signature ≠ [] := by
  intro empty
  have read := readDescriptor_signature wellFormed []
  rw [empty] at read
  cases read

/-- A signature in front of a text can be told from what follows it. -/
theorem signature_append_inj {first second : JavaType} (wellFirst : first.WellFormed)
    (wellSecond : second.WellFormed) {after after' : Text}
    (same : first.signature ++ after = second.signature ++ after') :
    first = second ∧ after = after' := by
  have readFirst := readDescriptor_signature wellFirst after
  have readSecond := readDescriptor_signature wellSecond after'
  rw [same] at readFirst
  exact Prod.mk.inj (Except.ok.inj (readFirst.symm.trans readSecond))

theorem signature_inj {first second : JavaType} (wellFirst : first.WellFormed)
    (wellSecond : second.WellFormed) (same : first.signature = second.signature) :
    first = second :=
  (signature_append_inj wellFirst wellSecond (congrArg (· ++ []) same)).1

/-- A sequence of types can be told from its signatures in a row. -/
theorem flatMap_signature_inj {first second : List JavaType}
    (wellFirst : ∀ type ∈ first, type.WellFormed) (wellSecond : ∀ type ∈ second, type.WellFormed)
    (same : first.flatMap signature = second.flatMap signature) : first = second := by
  induction first generalizing second with
  | nil =>
    cases second with
    | nil => rfl
    | cons type rest =>
      have empty := List.append_eq_nil_iff.mp (List.flatMap_cons.symm.trans same.symm)
      exact (signature_ne_nil (wellSecond type List.mem_cons_self) empty.1).elim
  | cons type rest ih =>
    cases second with
    | nil =>
      have empty := List.append_eq_nil_iff.mp (List.flatMap_cons.symm.trans same)
      exact (signature_ne_nil (wellFirst type List.mem_cons_self) empty.1).elim
    | cons other others =>
      rw [List.flatMap_cons, List.flatMap_cons] at same
      rcases signature_append_inj (wellFirst type List.mem_cons_self)
        (wellSecond other List.mem_cons_self) same with ⟨rfl, later⟩
      rw [ih (fun t member => wellFirst t (List.mem_cons_of_mem _ member))
        (fun t member => wellSecond t (List.mem_cons_of_mem _ member)) later]

/-! ## Reading signatures back -/

theorem trim_signature {type : JavaType} (wellFormed : type.WellFormed) :
    type.signature.trim = type.signature := by
  apply Text.trim_of_forall
  intro c member
  rcases mem_signature wellFormed member with rfl | rfl | rfl | name
  · decide
  · decide
  · decide
  · exact isBlank_of_isNameCodePoint name

theorem parse_signature {type : JavaType} (wellFormed : type.WellFormed) :
    parse type.signature = .ok type := by
  rw [parse_eq_ok_iff, trim_signature wellFormed]
  exact denotes_signature wellFormed

/-- A type that was read from some text has a signature, and reading the signature gives the
type.  Types that were read are therefore equal exactly if their signatures are. -/
theorem signature_reads_back {text : Text} {type : JavaType} (read : parse text = .ok type) :
    type.hasSignature = true ∧ parse type.signature = .ok type ∧
      ∀ {otherText : Text} {other : JavaType}, parse otherText = .ok other →
        (type = other ↔ type.signature = other.signature) := by
  have wellFormed := wellFormed_of_parse read
  refine ⟨wellFormed.hasSignature, parse_signature wellFormed, ?_⟩
  intro otherText other readOther
  constructor
  · intro same
    rw [same]
  · exact signature_inj wellFormed (wellFormed_of_parse readOther)

/-- Descriptors with dots and slashes, and source forms with blanks in them. -/
theorem signature_reads_back_mixed :
    let maps : JavaType := ⟨.object "java.util.Map$Entry", 2⟩
    parse "\t[[Ljava.util/Map$Entry; " = .ok maps ∧ parse "java.util.Map$Entry [] []" = .ok maps ∧
      maps.signature = "[[Ljava/util/Map$Entry;" ∧ parse maps.signature = .ok maps ∧
      ¬maps.signature = signature ⟨.primitive .int, 2⟩ := by
  intro maps
  have mixed : parse "\t[[Ljava.util/Map$Entry; " = .ok maps := rfl
  have numbers : parse "int[]\n[]" = .ok ⟨.primitive .int, 2⟩ := rfl
  rcases signature_reads_back mixed with ⟨_, back, apart⟩
  exact ⟨mixed, rfl, rfl, back, fun same => absurd ((apart numbers).mpr same) (by decide)⟩

end JavaType

end HookScript
