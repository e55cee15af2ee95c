import HookScript.Text.Basic

/-!
# Four hexadecimal digits

Escapes of 16-bit code units are written with exactly four hexadecimal digits,
in upper case in scripts and in lower case in documents.  Reading takes either
case.
-/

namespace HookScript.Hex

/-- The letters for the digits from ten on. -/
inductive Case where
  /-- `A` to `F`. -/
  | upper
  /-- `a` to `f`. -/
  | lower

def digit (letters : Case) (value : Nat) : CodePoint :=
  if value < 10 then .ofChar (Char.ofNat (0x30 + value))
  else match letters with
    | .upper => .ofChar (Char.ofNat (0x41 + (value - 10)))
    | .lower => .ofChar (Char.ofNat (0x61 + (value - 10)))

/-- The value of a digit in either case. -/
def value? (c : CodePoint) : Option Nat :=
  if 0x30 ≤ c.val && c.val ≤ 0x39 then some (c.val - 0x30)
  else if 0x41 ≤ c.val && c.val ≤ 0x46 then some (c.val - 0x41 + 10)
  else if 0x61 ≤ c.val && c.val ≤ 0x66 then some (c.val - 0x61 + 10)
  else none

/-- Reading a written digit gives its value. -/
theorem value?_digit (letters : Case) {value : Nat} (bound : value < 16) :
    value? (digit letters value) = some value := by
  have all : ∀ v < 16, value? (digit .upper v) = some v ∧ value? (digit .lower v) = some v := by
    decide
  cases letters
  · exact (all value bound).1
  · exact (all value bound).2

/-- The four digits of a code unit, the most significant first. -/
def unit (letters : Case) (u : Nat) : Text :=
  [digit letters (u / 0x1000 % 16), digit letters (u / 0x100 % 16),
    digit letters (u / 0x10 % 16), digit letters (u % 16)]

/-- The code unit that four digits stand for. -/
def unit? (a b c d : CodePoint) : Option Nat := do
  let a ← value? a
  let b ← value? b
  let c ← value? c
  let d ← value? d
  return a * 0x1000 + b * 0x100 + c * 0x10 + d

/-- Reading the four written digits gives the code unit. -/
theorem unit?_unit (letters : Case) {u : Nat} (bound : u < 0x10000) :
    unit? (digit letters (u / 0x1000 % 16)) (digit letters (u / 0x100 % 16))
      (digit letters (u / 0x10 % 16)) (digit letters (u % 16)) = some u := by
  simp only [unit?, value?_digit letters (Nat.mod_lt _ (by decide : 0 < 16)), Option.bind_eq_bind,
    Option.bind_some, Option.pure_def, Option.some.injEq]
  omega

end HookScript.Hex
