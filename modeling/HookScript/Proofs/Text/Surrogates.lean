import HookScript.Text.Utf8
import Mathlib.Data.List.Chain

/-!
# Surrogates in texts

A text that is decoded from bytes has no surrogates at all.  A text that a
document spells by escapes may have some, but the reader joins the two halves of
a pair, so that they never stand side by side.
-/

namespace HookScript

/-! ## Code points -/

namespace CodePoint

theorem isHighSurrogate_iff {n : Nat} : isHighSurrogate n = true ↔ 0xD800 ≤ n ∧ n < 0xDC00 := by
  simp only [isHighSurrogate, Bool.and_eq_true, decide_eq_true_eq]

theorem isLowSurrogate_iff {n : Nat} : isLowSurrogate n = true ↔ 0xDC00 ≤ n ∧ n < 0xE000 := by
  simp only [isLowSurrogate, Bool.and_eq_true, decide_eq_true_eq]

theorem isSurrogate_eq_false_iff {c : CodePoint} :
    c.isSurrogate = false ↔ c.val < 0xD800 ∨ 0xE000 ≤ c.val := by
  simp only [isSurrogate, Bool.and_eq_false_iff, decide_eq_false_iff_not, Nat.not_le, Nat.not_lt]

theorem not_isHighSurrogate {c : CodePoint} (scalar : c.isSurrogate = false) :
    ¬isHighSurrogate c.val = true := by
  have range := isSurrogate_eq_false_iff.mp scalar
  rw [isHighSurrogate_iff]
  omega

theorem not_isLowSurrogate {c : CodePoint} (scalar : c.isSurrogate = false) :
    ¬isLowSurrogate c.val = true := by
  have range := isSurrogate_eq_false_iff.mp scalar
  rw [isLowSurrogate_iff]
  omega

theorem isSome_toChar?_iff {c : CodePoint} : c.toChar?.isSome = true ↔ c.isSurrogate = false := by
  cases surrogate : c.isSurrogate with
  | false => simp only [toChar?, surrogate, Bool.false_eq_true, if_false, Option.isSome_some]
  | true => simp only [toChar?, surrogate, if_true, Option.isSome_none, Bool.false_eq_true,
      reduceCtorEq]

/-- A surrogate pair stands for a code point beyond the basic plane. -/
theorem isSurrogate_ofPair {high low : Nat} (isHigh : isHighSurrogate high = true)
    (isLow : isLowSurrogate low = true) : (ofPair high low).isSurrogate = false := by
  have highRange := isHighSurrogate_iff.mp isHigh
  have lowRange := isLowSurrogate_iff.mp isLow
  rw [isSurrogate_eq_false_iff, ofPair, val_ofNat (by omega)]
  omega

end CodePoint

namespace Text

/-! ## Texts without surrogates -/

/-- A text without surrogates. -/
def Scalar (text : Text) : Prop := ∀ c ∈ text, c.isSurrogate = false

instance : DecidablePred Scalar := fun text => List.decidableBAll _ text

theorem Scalar.of_suffix {text left : Text} (scalar : text.Scalar) (rest : left <:+ text) :
    left.Scalar := by
  intro c member
  exact scalar c (rest.subset member)

theorem scalar_ofString (s : String) : (ofString s).Scalar := by
  intro c member
  rcases List.mem_map.mp member with ⟨character, _, rfl⟩
  exact CodePoint.isSurrogate_ofChar character

theorem ofUtf8?_toUTF8 (s : String) : ofUtf8? s.toUTF8 = some (ofString s) :=
  congrArg (Option.map ofString) (dif_pos s.isValidUTF8)

/-- Just the texts without surrogates can be encoded. -/
theorem isSome_toUtf8?_iff {text : Text} : text.toUtf8?.isSome = true ↔ text.Scalar := by
  have letters : (text.mapM CodePoint.toChar?).isSome = true ↔ text.Scalar := by
    induction text with
    | nil => exact ⟨fun _ => nofun, fun _ => rfl⟩
    | cons c rest ih =>
      rw [Scalar, List.forall_mem_cons, ← Scalar, ← ih, ← CodePoint.isSome_toChar?_iff,
        List.mapM_cons]
      cases c.toChar? <;> cases rest.mapM CodePoint.toChar? <;> simp
  rw [toUtf8?, toString?, Option.isSome_map, Option.isSome_map, letters]

/-! ## Texts without split pairs -/

/-- A text in which the two halves of a surrogate pair never follow each other. -/
def Joined (text : Text) : Prop :=
  text.IsChain fun c d =>
    ¬(CodePoint.isHighSurrogate c.val = true ∧ CodePoint.isLowSurrogate d.val = true)

theorem joined_cons {c : CodePoint} {text : Text} : Joined (c :: text) ↔
    (∀ d ∈ text.head?, ¬(CodePoint.isHighSurrogate c.val = true ∧
      CodePoint.isLowSurrogate d.val = true)) ∧ text.Joined :=
  List.isChain_cons

theorem Joined.cons_scalar {c : CodePoint} {text : Text} (joined : text.Joined)
    (scalar : c.isSurrogate = false) : Joined (c :: text) := by
  refine joined_cons.mpr ⟨?_, joined⟩
  intro d _ pair
  exact CodePoint.not_isHighSurrogate scalar pair.1

theorem Scalar.joined {text : Text} (scalar : text.Scalar) : text.Joined := by
  induction text with
  | nil => exact List.isChain_nil
  | cons c rest ih =>
    have tail := ih (scalar.of_suffix (List.suffix_cons c rest))
    exact tail.cons_scalar (scalar c List.mem_cons_self)

/-- Nothing that follows a joined text makes a pair with it unless it starts with a
surrogate. -/
theorem Joined.append_scalar {first second : Text} (joined : first.Joined)
    (scalar : second.Scalar) : Joined (first ++ second) := by
  refine List.IsChain.append joined scalar.joined ?_
  intro c _ d head pair
  exact CodePoint.not_isLowSurrogate (scalar d (List.mem_of_mem_head? head)) pair.2

/-- The halves of a pair are told from the code point that they make, because a joined
text does not have them side by side. -/
theorem units16_cons_ne_of_basic {c d : CodePoint} {first second : Text}
    (joined : Joined (c :: first)) (basic : c.val < 0x10000) (beyond : ¬d.val < 0x10000) :
    units16 (c :: first) ≠ units16 (d :: second) := by
  intro same
  have high : CodePoint.isHighSurrogate (0xD800 + (d.val - 0x10000) / 0x400) = true := by
    have bound := d.isLt
    rw [CodePoint.isHighSurrogate_iff]
    omega
  have low : CodePoint.isLowSurrogate (0xDC00 + (d.val - 0x10000) % 0x400) = true := by
    rw [CodePoint.isLowSurrogate_iff]
    omega
  rw [units16_cons, units16_cons, CodePoint.units16, if_pos basic, CodePoint.units16, if_neg beyond]
    at same
  rcases List.cons.inj same with ⟨isHigh, behind⟩
  change first.units16 = (0xDC00 + (d.val - 0x10000) % 0x400) :: second.units16 at behind
  cases first with
  | nil => cases behind
  | cons e first =>
    rw [units16_cons, CodePoint.units16] at behind
    by_cases short : e.val < 0x10000
    · rw [if_pos short] at behind
      have isLow := (List.cons.inj behind).1
      rw [← isHigh] at high
      rw [← isLow] at low
      exact (joined_cons.mp joined).1 e rfl ⟨high, low⟩
    · rw [if_neg short] at behind
      have isLow := (List.cons.inj behind).1
      have bound := e.isLt
      omega

/-- A joined text is known by its code units. -/
theorem units16_inj {first second : Text} (joined : first.Joined) (joined' : second.Joined) :
    first.units16 = second.units16 ↔ first = second := by
  refine ⟨fun same => ?_, congrArg units16⟩
  have nonempty : ∀ (c : CodePoint) (rest : Text), units16 (c :: rest) ≠ [] := by
    intro c rest empty
    rw [units16_cons, CodePoint.units16] at empty
    split at empty <;> cases empty
  induction first generalizing second with
  | nil =>
    cases second with
    | nil => rfl
    | cons d second => exact (nonempty d second same.symm).elim
  | cons c first ih =>
    cases second with
    | nil => exact (nonempty c first same).elim
    | cons d second =>
      have later := ih (joined_cons.mp joined).2 (joined_cons.mp joined').2
      by_cases basic : c.val < 0x10000 <;> by_cases basic' : d.val < 0x10000
      · rw [units16_cons, units16_cons, CodePoint.units16, if_pos basic, CodePoint.units16,
          if_pos basic'] at same
        rcases List.cons.inj same with ⟨here, behind⟩
        rw [CodePoint.ext here, later behind]
      · exact (units16_cons_ne_of_basic joined basic basic' same).elim
      · exact (units16_cons_ne_of_basic joined' basic' basic same.symm).elim
      · rw [units16_cons, units16_cons, CodePoint.units16, if_neg basic, CodePoint.units16,
          if_neg basic'] at same
        rcases List.cons.inj same with ⟨high, behind⟩
        rcases List.cons.inj behind with ⟨low, behind⟩
        have here : c = d := by
          rw [← c.ofPair_units16 (Nat.not_lt.mp basic), high, low,
            d.ofPair_units16 (Nat.not_lt.mp basic')]
        rw [here, later behind]

end Text

end HookScript
