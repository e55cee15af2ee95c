import HookScript.JavaType.Notation
import HookScript.Proofs.Text.NameCodePoints
import HookScript.Proofs.Text.Parts

/-!
# The two notations as a grammar

The grammar says which texts denote which types, without a word about how a text
is read.  A descriptor is a number of opening brackets with a descriptor letter
or a class behind them; a type in source form is a name with pairs of brackets
behind it, each pair after blanks or none.  The two overlap in nothing but the
descriptor letters, which are never class names.

The main statement is that reading follows the grammar exactly: a text is read
as a type if and only if it denotes that type once the blanks around it are
gone, and any other text is an error that quotes it.
-/

namespace HookScript

/-! ## Binary names -/

/-- A segment of a binary name. -/
structure NameSegment (segment : Text) : Prop where
  nonempty : segment ≠ []
  codePoints : ∀ c ∈ segment, c = '_' ∨ c = '$' ∨ c.isAlphanumeric = true
  noDigit : ∀ c, segment.head? = some c → c.isDigit = false

/-- A name whose segments between the dots are all well-formed. -/
def BinaryName (name : Text) : Prop := ∀ segment ∈ name.splitAtEach '.', NameSegment segment

theorem isNameSegment_iff {segment : Text} :
    isNameSegment segment = true ↔ NameSegment segment := by
  cases segment with
  | nil => exact ⟨nofun, fun segment => (segment.nonempty rfl).elim⟩
  | cons c rest =>
    simp only [isNameSegment, Bool.and_eq_true, Bool.not_eq_true', List.all_eq_true,
      isNameCodePoint, Bool.or_eq_true, decide_eq_true_eq, or_assoc]
    constructor
    · intro checked
      refine ⟨List.cons_ne_nil c rest, checked.2, ?_⟩
      intro d head
      cases head
      exact checked.1
    · intro segment
      exact ⟨segment.noDigit c rfl, segment.codePoints⟩

theorem isBinaryName_iff {name : Text} : isBinaryName name = true ↔ BinaryName name := by
  simp only [isBinaryName, List.all_eq_true, isNameSegment_iff, BinaryName]

theorem NameFlaw.of?_eq_none_iff_binaryName {name : Text} :
    NameFlaw.of? name = none ↔ BinaryName name :=
  NameFlaw.of?_eq_none.trans isBinaryName_iff

/-- A text that could be a name as far as its code points go. -/
def Dotted (text : Text) : Prop := ∀ c ∈ text, c = '.' ∨ isNameCodePoint c = true

theorem BinaryName.dotted {name : Text} (valid : BinaryName name) : Dotted name := by
  intro c member
  rcases Text.mem_splitAtEach '.' member with dot | ⟨part, listed, inside⟩
  · exact Or.inl dot
  · right
    simp only [isNameCodePoint, Bool.or_eq_true, decide_eq_true_eq, or_assoc]
    exact (valid part listed).codePoints c inside

theorem BinaryName.ne_nil {name : Text} (valid : BinaryName name) : name ≠ [] := by
  intro empty
  subst empty
  exact (valid [] List.mem_cons_self).nonempty rfl

theorem Dotted.isBlank {text : Text} (dotted : Dotted text) {c : CodePoint} (member : c ∈ text) :
    c.isBlank = false := by
  rcases dotted c member with dot | name
  · subst dot
    decide
  · exact isBlank_of_isNameCodePoint name

/-- Of the marks around names, only the dot may occur in one. -/
theorem Dotted.not_mem {text : Text} (dotted : Dotted text) (mark : CodePoint)
    (listed : mark ∈ nameMarks) (other : mark ≠ '.') : mark ∉ text := by
  intro member
  rcases dotted mark member with dot | name
  · exact other dot
  · exact Bool.false_ne_true ((isNameCodePoint_of_mark mark listed).symm.trans name)

theorem Primitive.binaryName_name : ∀ type ∈ all, BinaryName type.name := by
  intro type member
  rw [← isBinaryName_iff]
  revert type
  decide

/-! ## The grammar -/

namespace JavaType

/-- How a descriptor writes the base of a type.  Slashes and dots may both
separate the packages of a class. -/
inductive BaseDescriptor : Text → BaseType → Prop where
  | letter {type : Primitive} (known : type ∈ Primitive.all) :
      BaseDescriptor type.descriptor (.primitive type)
  | named {name : Text} (unended : .ofChar ';' ∉ name)
      (valid : BinaryName (name.replaceEach '/' '.')) :
      BaseDescriptor ("L" ++ name ++ ";") (.object (name.replaceEach '/' '.'))

/-- How source code writes the base of a type.  The name of a primitive type
never means a class. -/
inductive BaseName : Text → BaseType → Prop where
  | keyword {type : Primitive} (known : type ∈ Primitive.all) :
      BaseName type.name (.primitive type)
  | named {name : Text} (valid : BinaryName name)
      (free : ∀ type ∈ Primitive.all, type.name ≠ name) : BaseName name (.object name)

/-- A number of pairs of brackets, each after blanks or none. -/
inductive Brackets : Nat → Text → Prop where
  | none : Brackets 0 []
  | pair {dims : Nat} {before blanks : Text} (more : Brackets dims before)
      (blank : blanks.isBlank = true) : Brackets (dims + 1) (before ++ blanks ++ "[]")

/-- Arrays of anything but void. -/
def Sized (base : BaseType) (dims : Nat) : Prop := base = .primitive .void → dims = 0

/-- What a text without blanks around it denotes. -/
inductive Denotes : Text → JavaType → Prop where
  | descriptor {base : BaseType} {dims : Nat} {text : Text} (written : BaseDescriptor text base)
      (sized : Sized base dims) :
      Denotes (List.replicate dims (.ofChar '[') ++ text) ⟨base, dims⟩
  | source {base : BaseType} {dims : Nat} {name brackets : Text} (written : BaseName name base)
      (paired : Brackets dims brackets) (sized : Sized base dims)
      (noLetter : ∀ type ∈ Primitive.all, type.descriptor ≠ name ++ brackets) :
      Denotes (name ++ brackets) ⟨base, dims⟩

end JavaType

end HookScript
