import HookScript.Text.Basic

/-!
# Decimal notation

A number that a document gives with a fraction or an exponent, kept exactly as
it is given.  Documents may also name the two infinities and a number that is
none.
-/

namespace HookScript

/-- A number as decimal notation gives it. -/
inductive Decimal where
  /-- The coefficient times a power of ten, with a sign. -/
  | finite (negative : Bool) (coefficient : Nat) (exponent : Int)
  | infinite (negative : Bool)
  | notANumber
deriving DecidableEq

namespace Decimal

def signText (negative : Bool) : Text := if negative then "-" else []

/-- A number written with an exponent and without a fraction. -/
def render : Decimal → Text
  | .finite negative coefficient exponent =>
    signText negative ++ Text.ofNat coefficient ++ "e" ++ Text.ofInt exponent
  | .infinite negative => signText negative ++ "Infinity"
  | .notANumber => "NaN"

end Decimal

end HookScript
