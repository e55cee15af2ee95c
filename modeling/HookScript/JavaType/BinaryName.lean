import HookScript.Text.Numeral
import HookScript.Text.Basic

/-!
# Binary names

The binary name of a class is a sequence of segments with dots between them,
such as `java.util.Map$Entry`.  A segment consists of alphanumeric code points,
underscores and dollar signs, and does not start with a digit.
-/

namespace HookScript

/-- Whether a code point may stand in a segment of a binary name. -/
def isNameCodePoint (c : CodePoint) : Bool := c = '_' || c = '$' || c.isAlphanumeric

/-- Why a text is no binary name. -/
inductive NameFlaw where
  /-- There is nothing at all. -/
  | empty
  /-- A dot stands at an end, or next to another dot. -/
  | emptySegment
  /-- A segment starts with a digit. -/
  | leadingDigit
  /-- A code point may not stand in a segment. -/
  | invalidCodePoint (c : CodePoint)
deriving DecidableEq

namespace NameFlaw

def message : NameFlaw → Text
  | .empty => "empty class name"
  | .emptySegment => "empty name segment"
  | .leadingDigit => "name segment starts with a digit"
  | .invalidCodePoint c => "invalid character '" ++ [c] ++ "'"

/-- The first flaw of a segment. -/
def ofSegment? : Text → Option NameFlaw
  | [] => some .emptySegment
  | c :: rest =>
    if c.isDigit then some .leadingDigit
    else ((c :: rest).find? fun d => !isNameCodePoint d).map .invalidCodePoint

/-- The first flaw of a name. -/
def of? (name : Text) : Option NameFlaw :=
  if name = [] then some .empty else (name.splitAtEach '.').findSome? ofSegment?

end NameFlaw

def isNameSegment : Text → Bool
  | [] => false
  | c :: rest => !c.isDigit && (c :: rest).all isNameCodePoint

def isBinaryName (name : Text) : Bool := (name.splitAtEach '.').all isNameSegment

theorem NameFlaw.ofSegment?_eq_none {segment : Text} :
    ofSegment? segment = none ↔ isNameSegment segment = true := by
  cases segment with
  | nil => exact ⟨nofun, nofun⟩
  | cons c rest =>
    unfold ofSegment? isNameSegment
    cases digit : c.isDigit
    · simp only [digit, Bool.false_eq_true, if_false, Option.map_eq_none_iff, List.find?_eq_none,
        Bool.not_eq_true', Bool.not_eq_false, Bool.not_false, Bool.true_and, List.all_eq_true]
    · simp only [digit, if_true, reduceCtorEq, Bool.not_true, Bool.false_and, Bool.false_eq_true]

/-- The names without a flaw are the binary names. -/
theorem NameFlaw.of?_eq_none {name : Text} : of? name = none ↔ isBinaryName name = true := by
  unfold of? isBinaryName
  split
  next empty =>
    rw [empty]
    exact ⟨nofun, nofun⟩
  next =>
    simp only [List.findSome?_eq_none_iff, ofSegment?_eq_none, List.all_eq_true]

end HookScript
