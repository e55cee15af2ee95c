import HookScript.JavaType.BinaryName
import HookScript.Text.Blank

/-!
# What no name contains

Names are made of letters, digits, other numerals, underscores and dollar signs.
So neither a blank nor a surrogate occurs in a name, and neither does any of the
marks that types and identities are put together with.  The tables of code
points are compared range by range, since no code point is special.
-/

namespace HookScript

namespace Ranges

/-- Whether no range of one table overlaps a range of another one. -/
def apart (first second : Ranges) : Bool :=
  first.all fun r => second.all fun s => r.2 < s.1 || s.2 < r.1

theorem not_overlapping {first second : Ranges} (separate : apart first second = true) {n : Nat}
    {r s : Nat × Nat} (left : r ∈ first) (right : s ∈ second)
    (inLeft : r.1 ≤ n ∧ n ≤ r.2) (inRight : s.1 ≤ n ∧ n ≤ s.2) : False := by
  have every := List.all_eq_true.mp (List.all_eq_true.mp separate r left) s right
  rw [Bool.or_eq_true, decide_eq_true_eq, decide_eq_true_eq] at every
  omega

end Ranges

/-- The code points of names, class after class and not in order. -/
def nameRanges : Ranges :=
  [(0x5F, 0x5F), (0x24, 0x24)] ++ letterRanges ++ digitRanges ++ otherNumeralRanges

theorem exists_nameRange {c : CodePoint} (name : isNameCodePoint c = true) :
    ∃ range ∈ nameRanges, range.1 ≤ c.val ∧ c.val ≤ range.2 := by
  simp only [isNameCodePoint, CodePoint.isAlphanumeric, CodePoint.isLetter, CodePoint.isDigit,
    Bool.or_eq_true, decide_eq_true_eq] at name
  have within : ∀ {ranges : Ranges}, Ranges.contains c.val ranges = true →
      (∀ range ∈ ranges, range ∈ nameRanges) →
      ∃ range ∈ nameRanges, range.1 ≤ c.val ∧ c.val ≤ range.2 := by
    intro ranges found included
    rcases Ranges.exists_of_contains found with ⟨range, member, bounds⟩
    exact ⟨range, included range member, bounds⟩
  rcases name with (underscore | dollar) | (letter | digit) | numeral
  · subst underscore
    exact ⟨(0x5F, 0x5F), List.mem_cons_self, by decide⟩
  · subst dollar
    exact ⟨(0x24, 0x24), List.mem_cons_of_mem _ List.mem_cons_self, by decide⟩
  · exact within letter fun range member =>
      List.mem_append_left _ (List.mem_append_left _ (List.mem_append_right _ member))
  · exact within digit fun range member =>
      List.mem_append_left _ (List.mem_append_right _ member)
  · exact within numeral fun range member => List.mem_append_right _ member

theorem isBlank_of_isNameCodePoint {c : CodePoint} (name : isNameCodePoint c = true) :
    c.isBlank = false := by
  have separate : Ranges.apart nameRanges blankRanges = true := by decide +kernel
  cases blank : c.isBlank with
  | false => rfl
  | true =>
    rcases exists_nameRange name with ⟨r, left, inLeft⟩
    rcases Ranges.exists_of_contains blank with ⟨s, right, inRight⟩
    exact (Ranges.not_overlapping separate left right inLeft inRight).elim

theorem isSurrogate_of_isNameCodePoint {c : CodePoint} (name : isNameCodePoint c = true) :
    c.isSurrogate = false := by
  have separate : Ranges.apart nameRanges [(0xD800, 0xDFFF)] = true := by decide +kernel
  cases surrogate : c.isSurrogate with
  | false => rfl
  | true =>
    rcases exists_nameRange name with ⟨r, left, inLeft⟩
    have bounds : 0xD800 ≤ c.val ∧ c.val ≤ 0xDFFF := by
      simp only [CodePoint.isSurrogate, Bool.and_eq_true, decide_eq_true_eq] at surrogate
      omega
    exact (Ranges.not_overlapping separate left List.mem_cons_self inLeft bounds).elim

/-- The marks that stand between or around names. -/
def nameMarks : Text := ".;/[]()"

theorem isNameCodePoint_of_mark : ∀ c ∈ nameMarks, isNameCodePoint c = false := by decide

end HookScript
