import HookScript.Number.Decimal

/-!
# The values of numbers

Decimal notation stands for the nearest number of double precision, and a tie
goes to the one with an even significand.  An integer stands for itself, however
large it is.  Every finite number of double precision is a multiple of the
smallest positive one, `2 ^ -1074`, so both kinds of values are counted in this
unit and compared as integers.

The main facts are `roundDiv_near`, which says that rounding a quotient goes
wrong by half a divisor at most, and `roundDiv_tie`, which says that it goes to
the even neighbour if both are equally near.
-/

namespace HookScript

/-! ## Rounding -/

/-- The integer nearest to a quotient; of two that are equally near, the even
one. -/
def roundDiv (dividend divisor : Nat) : Nat :=
  let below := dividend / divisor
  let rest := dividend % divisor
  if 2 * rest < divisor ∨ (2 * rest = divisor ∧ below % 2 = 0) then below else below + 1

/-- The rounded quotient differs from the exact one by half at most. -/
theorem roundDiv_near (dividend : Nat) {divisor : Nat} (positive : 0 < divisor) :
    2 * (divisor * roundDiv dividend divisor) ≤ 2 * dividend + divisor ∧
      2 * dividend ≤ 2 * (divisor * roundDiv dividend divisor) + divisor := by
  have exact := Nat.div_add_mod dividend divisor
  have small := Nat.mod_lt dividend positive
  unfold roundDiv
  dsimp only
  split
  · constructor <;> omega
  · rw [Nat.mul_succ]
    constructor <;> omega

/-- A quotient in the middle between two integers goes to the even one. -/
theorem roundDiv_tie {dividend divisor : Nat} (tie : 2 * (dividend % divisor) = divisor) :
    roundDiv dividend divisor % 2 = 0 := by
  unfold roundDiv
  dsimp only
  split
  next here =>
    rcases here with less | even
    · omega
    · exact even.2
  next => omega

/-- The number of units nearest to a quotient that 53 binary digits can give. -/
def nearestUnits (dividend divisor : Nat) : Nat :=
  let step := Nat.pow 2 (Nat.log2 (dividend / divisor) - 52)
  step * roundDiv dividend (divisor * step)

/-! ## Values -/

/-- The exact value of a number. -/
inductive ExactNumber where
  /-- A multiple of `2 ^ -1074`. -/
  | finite (units : Int)
  | infinite (negative : Bool)
  | notANumber
deriving DecidableEq

namespace ExactNumber

/-- How many units there are in one. -/
def unitsPerOne : Nat := Nat.pow 2 1074

/-- The units at which numbers of double precision are too large to be finite. -/
def overflow : Nat := Nat.pow 2 1024 * unitsPerOne

def ofInt (n : Int) : ExactNumber := .finite (n * unitsPerOne)

/-- Equality of numbers: what is not a number is not equal to anything. -/
def equals : ExactNumber → ExactNumber → Bool
  | .notANumber, _ => false
  | first, second => first = second

end ExactNumber

/-- The value of a number in decimal notation.  From an exponent of 311 on every
number but zero is too large to be finite; and if the exponent is lower than -330
by more than the binary digits of the coefficient, the number is nearer to zero
than to any other. -/
def Decimal.nearest : Decimal → ExactNumber
  | .notANumber => .notANumber
  | .infinite negative => .infinite negative
  | .finite negative coefficient exponent =>
    if coefficient = 0 then .finite 0
    else if 310 < exponent then .infinite negative
    else if exponent + coefficient.log2 < -331 then .finite 0
    else
      let units := nearestUnits (coefficient * Nat.pow 10 exponent.toNat * ExactNumber.unitsPerOne)
        (Nat.pow 10 (-exponent).toNat)
      if ExactNumber.overflow ≤ units then .infinite negative
      else .finite (if negative then -units else units)

end HookScript
