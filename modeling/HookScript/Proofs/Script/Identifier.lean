import HookScript.Program.Loading
import HookScript.Proofs.Text.NameCodePoints

/-!
# What identifiers are made of

An identifier is made of the code points of names, so whatever is true of names
code point by code point is true of identifiers.  The names that arguments get
by default are identifiers: they have digits, and no reserved word has.
-/

namespace HookScript

namespace Text

theorem mem_ofNat {n : Nat} {c : CodePoint} (member : c ∈ ofNat n) :
    0x30 ≤ c.val ∧ c.val ≤ 0x39 := by
  rcases List.mem_map.mp member with ⟨letter, inside, rfl⟩
  have digit := Nat.isDigit_of_mem_toDigits (by decide) (by decide) inside
  simp only [Char.isDigit, Bool.and_eq_true, decide_eq_true_eq] at digit
  exact digit

theorem ofNat_ne_nil (n : Nat) : ofNat n ≠ [] := by
  intro empty
  exact Nat.toDigits_ne_nil (List.map_eq_nil_iff.mp empty)

/-- Distinct numbers have distinct decimal notations. -/
theorem ofNat_injective : Function.Injective ofNat := by
  intro first second same
  have digits : Nat.toDigits 10 first = Nat.toDigits 10 second :=
    (List.map_inj_right fun _ _ => CodePoint.ofChar_inj.mp).mp same
  calc
    first = Nat.ofDigitChars 10 (Nat.toDigits 10 first) 0 := Nat.ofDigitChars_ten_toDigits.symm
    _ = Nat.ofDigitChars 10 (Nat.toDigits 10 second) 0 := by rw [digits]
    _ = second := Nat.ofDigitChars_ten_toDigits

end Text

namespace Script

theorem isNameCodePoint_of_isIdentifier {name : Text} (identifier : isIdentifier name = true) :
    ∀ c ∈ name, isNameCodePoint c = true := by
  cases name with
  | nil => exact absurd identifier Bool.false_ne_true
  | cons c rest =>
    simp only [isIdentifier, Bool.and_eq_true, List.all_eq_true] at identifier
    intro d member
    rcases List.mem_cons.mp member with same | later
    · rw [same]
      exact isIdentifierPart_of_isIdentifierStart identifier.1.1
    · exact identifier.1.2 d later

/-- A mark that no name holds does not occur in a name. -/
theorem not_mem_of_isIdentifier {name : Text} (identifier : isIdentifier name = true)
    {mark : CodePoint} (noName : isNameCodePoint mark = false) : mark ∉ name := fun member =>
  Bool.false_ne_true (noName.symm.trans (isNameCodePoint_of_isIdentifier identifier mark member))

theorem ne_nil_of_isIdentifier {name : Text} (identifier : isIdentifier name = true) :
    name ≠ [] := by
  intro empty
  subst empty
  exact absurd identifier Bool.false_ne_true

theorem isIdentifierPart_of_decimal {c : CodePoint} (digit : 0x30 ≤ c.val ∧ c.val ≤ 0x39) :
    isIdentifierPart c = true := by
  have found : c.isDigit = true := by
    have first : (0x30, 0x39) ∈ digitRanges := List.mem_cons_self
    exact Ranges.contains_of_mem (by decide) first digit.1 digit.2
  simp only [isIdentifierPart, CodePoint.isAlphanumeric, found, Bool.or_true, Bool.true_or]

theorem not_isIdentifierStart_of_decimal {c : CodePoint} (digit : 0x30 ≤ c.val ∧ c.val ≤ 0x39) :
    isIdentifierStart c = false := by
  have letter : c.isLetter = false := if_pos (by omega : c.val < 0x41)
  have mark : ∀ mark : Char, ¬(0x30 ≤ mark.toNat ∧ mark.toNat ≤ 0x39) → c ≠ mark := by
    intro mark notDecimal same
    rw [same] at digit
    exact notDecimal digit
  rw [isIdentifierStart, letter, decide_eq_false (mark '_' (by decide)),
    decide_eq_false (mark '$' (by decide))]
  rfl

/-- A letter with a number behind it can be declared. -/
theorem isIdentifier_numbered (n : Nat) : isIdentifier ("p" ++ Text.ofNat n) = true := by
  have noDigits : ∀ word ∈ reservedWords, ∀ c ∈ word, ¬(0x30 ≤ c.val ∧ c.val ≤ 0x39) := by decide
  have parts : (Text.ofNat n).all isIdentifierPart = true :=
    List.all_eq_true.mpr fun c member => isIdentifierPart_of_decimal (Text.mem_ofNat member)
  have free : reservedWords.contains (.ofChar 'p' :: Text.ofNat n) = false := by
    rw [List.contains_eq_mem, decide_eq_false_iff_not]
    intro reserved
    rcases List.exists_mem_of_ne_nil _ (Text.ofNat_ne_nil n) with ⟨c, member⟩
    exact noDigits _ reserved c (List.mem_cons_of_mem _ member) (Text.mem_ofNat member)
  change isIdentifier (.ofChar 'p' :: Text.ofNat n) = true
  rw [isIdentifier, parts, free]
  decide

end Script

theorem Loading.isIdentifier_of_mem_defaultArgumentNames {count : Nat} {name : Text}
    (member : name ∈ defaultArgumentNames count) : Script.isIdentifier name = true := by
  rcases List.mem_map.mp member with ⟨place, _, rfl⟩
  exact Script.isIdentifier_numbered place

theorem Loading.nodup_defaultArgumentNames (count : Nat) : (defaultArgumentNames count).Nodup := by
  apply List.Pairwise.map _ _ List.nodup_range
  intro first second different same
  exact different (Text.ofNat_injective (List.append_cancel_left same))

theorem Loading.length_defaultArgumentNames (count : Nat) :
    (defaultArgumentNames count).length = count := by
  rw [defaultArgumentNames, List.length_map, List.length_range]

end HookScript
