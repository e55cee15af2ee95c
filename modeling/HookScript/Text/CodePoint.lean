/-!
# Code points

A document may name a class by any sequence of Unicode code points, halves of
surrogate pairs included: an escape such as `\ud800` in a document stands for
one lone surrogate.  `Char` excludes surrogates, so text is made of
`CodePoint`s, the numbers below `0x110000`.

The only facts about a code point that the rest of the library needs are its
number, its UTF-16 code units, and whether it is a surrogate.
-/

namespace HookScript

/-- A Unicode code point.  Surrogates count: they are code points that are not
scalar values. -/
structure CodePoint where
  /-- The number of the code point. -/
  val : Nat
  /-- Unicode ends at `0x10FFFF`. -/
  isLt : val < 0x110000
deriving DecidableEq

namespace CodePoint

@[ext]
theorem ext {c d : CodePoint} (equal : c.val = d.val) : c = d := by
  cases c
  cases d
  cases equal
  rfl

/-- The number of a character is below the end of Unicode. -/
theorem toNat_char_lt (c : Char) : c.toNat < 0x110000 := by
  rcases c.valid with low | ⟨_, high⟩
  · have bound : c.toNat < 0xD800 := low
    omega
  · exact high

def ofChar (c : Char) : CodePoint := ⟨c.toNat, toNat_char_lt c⟩

instance : Coe Char CodePoint := ⟨ofChar⟩

@[simp]
theorem val_ofChar (c : Char) : (ofChar c).val = c.toNat := rfl

/-- Distinct characters are distinct code points. -/
theorem ofChar_inj {c d : Char} : ofChar c = ofChar d ↔ c = d :=
  ⟨fun equal => Char.toNat_inj.mp (congrArg val equal), congrArg ofChar⟩

/-- The code point with a given number; the replacement character stands for a
number that is too large. -/
def ofNat (n : Nat) : CodePoint :=
  if bound : n < 0x110000 then ⟨n, bound⟩ else ⟨0xFFFD, by decide⟩

theorem val_ofNat {n : Nat} (bound : n < 0x110000) : (ofNat n).val = n := by
  simp only [ofNat, dif_pos bound]

@[simp]
theorem ofNat_val (c : CodePoint) : ofNat c.val = c := by
  simp only [ofNat, dif_pos c.isLt]

instance : Inhabited CodePoint := ⟨ofNat 0⟩

/-! ## Surrogates and code units -/

/-- The first half of a surrogate pair. -/
def isHighSurrogate (n : Nat) : Bool := 0xD800 ≤ n && n < 0xDC00

/-- The second half of a surrogate pair. -/
def isLowSurrogate (n : Nat) : Bool := 0xDC00 ≤ n && n < 0xE000

/-- Surrogates are the code points that no character has. -/
def isSurrogate (c : CodePoint) : Bool := 0xD800 ≤ c.val && c.val < 0xE000

/-- The character at this code point, if it is not a surrogate. -/
def toChar? (c : CodePoint) : Option Char :=
  if c.isSurrogate then none else some (Char.ofNat c.val)

/-- Characters are not surrogates. -/
@[simp]
theorem isSurrogate_ofChar (c : Char) : (ofChar c).isSurrogate = false := by
  rw [isSurrogate, val_ofChar, Bool.and_eq_false_iff]
  rcases c.valid with low | ⟨high, _⟩
  · have bound : c.toNat < 0xD800 := low
    exact .inl (decide_eq_false (Nat.not_le_of_lt bound))
  · have bound : 0xDFFF < c.toNat := high
    exact .inr (decide_eq_false (Nat.not_lt_of_le bound))

@[simp]
theorem toChar?_ofChar (c : Char) : (ofChar c).toChar? = some c := by
  simp only [toChar?, isSurrogate_ofChar, Bool.false_eq_true, if_false, val_ofChar,
    Char.ofNat_toNat]

/-- The UTF-16 code units of a code point: itself inside the basic plane, a
surrogate pair beyond it. -/
def units16 (c : CodePoint) : List Nat :=
  if c.val < 0x10000 then [c.val]
  else [0xD800 + (c.val - 0x10000) / 0x400, 0xDC00 + (c.val - 0x10000) % 0x400]

/-- The code point that a surrogate pair stands for. -/
def ofPair (high low : Nat) : CodePoint :=
  ofNat (0x10000 + (high - 0xD800) * 0x400 + (low - 0xDC00))

/-- Joining the two code units of a code point beyond the basic plane gives it
back. -/
theorem ofPair_units16 (c : CodePoint) (beyond : 0x10000 ≤ c.val) :
    ofPair (0xD800 + (c.val - 0x10000) / 0x400) (0xDC00 + (c.val - 0x10000) % 0x400) = c := by
  have split : 0x10000 + (0xD800 + (c.val - 0x10000) / 0x400 - 0xD800) * 0x400 +
      (0xDC00 + (c.val - 0x10000) % 0x400 - 0xDC00) = c.val := by omega
  rw [ofPair, split, ofNat_val]

/-- Every code unit is a 16-bit number. -/
theorem units16_lt (c : CodePoint) : ∀ u ∈ c.units16, u < 0x10000 := by
  intro u member
  have bound := c.isLt
  unfold units16 at member
  split at member
  · simp only [List.mem_singleton] at member
    omega
  · simp only [List.mem_cons, List.not_mem_nil, or_false] at member
    omega

end CodePoint

end HookScript
