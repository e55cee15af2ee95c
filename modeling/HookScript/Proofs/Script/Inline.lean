import HookScript.Proofs.JavaType.OverloadArgument
import HookScript.Proofs.Script.Escaping
import HookScript.Proofs.Script.Identifier
import HookScript.Proofs.Text.Surrogates

/-!
# What lines of scripts are made of

Scripts are written in ASCII without controls, but for names, which may have
letters and numerals from anywhere.  Such code points neither break a line nor
fail to be encoded.  All that scripts are put together with is made of them:
escaped text, identifiers, and the arguments of overload selectors.

A delete character is the one control that scripts may hold.  Escaping leaves it
alone.
-/

namespace HookScript

/-! ## Code points -/

namespace CodePoint

/-- A code point that a line may hold. -/
def Inline (c : CodePoint) : Prop :=
  (0x20 ≤ c.val ∧ c.val ≤ 0x7F) ∨ (0x7F < c.val ∧ c.isAlphanumeric = true)

instance : DecidablePred Inline := fun _ => inferInstanceAs (Decidable (_ ∨ _))

/-- The control characters of Unicode. -/
def IsControl (c : CodePoint) : Prop := c.val < 0x20 ∨ (0x7F ≤ c.val ∧ c.val ≤ 0x9F)

instance : DecidablePred IsControl := fun _ => inferInstanceAs (Decidable (_ ∨ _))

def delete : CodePoint := .ofChar '\x7F'

/-- Controls, separators of lines and paragraphs, and surrogates. -/
def strayRanges : Ranges := [(0, 0x1F), (0x80, 0x9F), (0x2028, 0x2029), (0xD800, 0xDFFF)]

theorem not_stray_of_isNameCodePoint {c : CodePoint} (name : isNameCodePoint c = true) :
    ∀ range ∈ strayRanges, ¬(range.1 ≤ c.val ∧ c.val ≤ range.2) := by
  have separate : Ranges.apart nameRanges strayRanges = true := by decide +kernel
  intro range listed inside
  rcases exists_nameRange name with ⟨found, member, within⟩
  exact Ranges.not_overlapping separate member listed within inside

theorem inline_of_isNameCodePoint {c : CodePoint} (name : isNameCodePoint c = true) : c.Inline := by
  have visible := not_stray_of_isNameCodePoint name (0, 0x1F) (by decide)
  by_cases beyond : 0x7F < c.val
  · right
    simp only [isNameCodePoint, Bool.or_eq_true, decide_eq_true_eq] at name
    rcases name with (rfl | rfl) | alphanumeric
    · exact absurd beyond (by decide)
    · exact absurd beyond (by decide)
    · exact ⟨beyond, alphanumeric⟩
  · left
    omega

theorem Inline.not_stray {c : CodePoint} (line : c.Inline) :
    ∀ range ∈ strayRanges, ¬(range.1 ≤ c.val ∧ c.val ≤ range.2) := by
  rcases line with ascii | ⟨_, alphanumeric⟩
  · have outside : ∀ range ∈ strayRanges, range.2 < 0x20 ∨ 0x7F < range.1 := by decide
    intro range listed inside
    have apart := outside range listed
    omega
  · apply not_stray_of_isNameCodePoint
    rw [isNameCodePoint, alphanumeric, Bool.or_true]

theorem Inline.eq_delete_of_isControl {c : CodePoint} (line : c.Inline) (control : c.IsControl) :
    c = delete := by
  have low := line.not_stray (0, 0x1F) (by decide)
  have high := line.not_stray (0x80, 0x9F) (by decide)
  have number : c.val = 0x7F := by
    rw [IsControl] at control
    omega
  exact ext number

theorem Inline.ne_separator {c : CodePoint} (line : c.Inline) :
    c.val ≠ 0x2028 ∧ c.val ≠ 0x2029 := by
  have apart := line.not_stray (0x2028, 0x2029) (by decide)
  omega

theorem Inline.isSurrogate {c : CodePoint} (line : c.Inline) : c.isSurrogate = false := by
  have apart := line.not_stray (0xD800, 0xDFFF) (by decide)
  rw [isSurrogate_eq_false_iff]
  omega

end CodePoint

/-! ## Texts -/

namespace Text

/-- A text that a line may hold. -/
def Inline (text : Text) : Prop := ∀ c ∈ text, c.Inline

instance : DecidablePred Inline := fun text => List.decidableBAll _ text

theorem Inline.append {first second : Text} (inlineFirst : first.Inline)
    (inlineSecond : second.Inline) : Inline (first ++ second) :=
  List.forall_mem_append.mpr ⟨inlineFirst, inlineSecond⟩

theorem Inline.intercalate {gap : Text} {parts : List Text} (inlineGap : gap.Inline)
    (inlineParts : ∀ part ∈ parts, part.Inline) : Inline (List.intercalate gap parts) := by
  intro c member
  rcases mem_intercalate member with inGap | ⟨part, listed, inPart⟩
  · exact inlineGap c inGap
  · exact inlineParts part listed c inPart

theorem Inline.newline_not_mem {text : Text} (line : text.Inline) : .ofChar '\n' ∉ text :=
  fun member => absurd (line _ member) (by decide)

theorem inline_of_isIdentifier {name : Text} (identifier : Script.isIdentifier name = true) :
    name.Inline := fun c member =>
  CodePoint.inline_of_isNameCodePoint (Script.isNameCodePoint_of_isIdentifier identifier c member)

end Text

namespace Script

theorem StringLiteral.inline_escape (text : Text) : Text.Inline (escape text) :=
  fun _ member => Or.inl (mem_escape member)

theorem TemplateLiteral.inline_escape {text : Text} (line : text.Inline) :
    Text.Inline (escape text) := by
  intro c member
  rcases mem_escape member with inText | backslash
  · exact line c inText
  · rw [backslash]
    decide

end Script

theorem JavaType.inline_overloadArgument {type : JavaType} (wellFormed : type.WellFormed) :
    type.overloadArgument.Inline := by
  have marks : ∀ mark ∈ overloadMarks, mark.Inline := by decide
  intro c member
  rcases mem_overloadArgument wellFormed member with mark | name
  · exact marks c mark
  · exact CodePoint.inline_of_isNameCodePoint name

end HookScript
