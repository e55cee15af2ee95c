import HookScript.CommandLine.FileName
import HookScript.Text.Hex

/-!
# Breakdowns

A run may break off in a way that nothing in the program takes care of.  Then it has no
exit code of its own, and reports no failure.
-/

namespace HookScript.CommandLine

/-- What a run breaks off with. -/
inductive Breakdown where
  /-- A file is opened whose name holds surrogates that stand for no bytes. -/
  | unencodable (place : Nat) (misfits : Text)
  /-- A file is opened whose name holds a zero byte. -/
  | zeroByte
  /-- An integer of a document has more digits than it may have. -/
  | overlongInteger (limit count : Nat)
  /-- The stack is exhausted. -/
  | stack (message : Text)
deriving DecidableEq

namespace Breakdown

def message : Breakdown → Text
  | .unencodable place [c] =>
    "'utf-8' codec can't encode character '\\u" ++ Hex.unit .lower c.val ++ "' in position " ++
      Text.ofNat place ++ ": surrogates not allowed"
  | .unencodable place misfits =>
    "'utf-8' codec can't encode characters in position " ++ Text.ofNat place ++ "-" ++
      Text.ofNat (place + misfits.length - 1) ++ ": surrogates not allowed"
  | .zeroByte => "embedded null byte"
  | .overlongInteger limit count =>
    "Exceeds the limit (" ++ Text.ofNat limit ++
      " digits) for integer string conversion: value has " ++ Text.ofNat count ++
      " digits; use sys.set_int_max_str_digits() to increase the limit"
  | .stack message => message

end Breakdown

/-- Why a name cannot even be looked up. -/
def openFault? (name : Text) : Option Breakdown :=
  match FileName.misfit? name with
  | some (place, misfits) => some (.unencodable place misfits)
  | none =>
    if (FileName.ofText? name).any fun file => 0 ∈ file.bytes then some .zeroByte else none

theorem openFault?_eq_none_iff {name : Text} : openFault? name = none ↔ Openable name := by
  unfold openFault? Openable
  cases misfit : FileName.misfit? name with
  | some found =>
    have noFile : FileName.ofText? name = none := by
      rw [← Option.not_isSome_iff_eq_none, ← FileName.misfit?_eq_none_iff, misfit]
      exact nofun
    rw [noFile]
    constructor
    · exact nofun
    · rintro ⟨_, impossible, _⟩
      cases impossible
  | none =>
    obtain ⟨file, isFile⟩ := Option.isSome_iff_exists.mp (FileName.misfit?_eq_none_iff.mp misfit)
    rw [isFile]
    dsimp only
    rw [Option.any_some]
    split
    next zero =>
      constructor
      · exact nofun
      · rintro ⟨_, same, noZero⟩
        cases same
        exact absurd (of_decide_eq_true zero) noZero
    next noZero => exact ⟨fun _ => ⟨file, rfl, fun zero => noZero (decide_eq_true zero)⟩, fun _ => rfl⟩

end HookScript.CommandLine
