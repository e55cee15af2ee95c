import HookScript.Number.Decimal

/-!
# Documents

The value of a JSON document.  An object keeps its members in the order of the
text, repeated names included; looking a name up finds the last member with it.
Numbers that are not integers are kept exactly as decimal notation gives them.

A `Path` leads from a document to one of its parts.
-/

namespace HookScript

inductive Json where
  | null
  | bool (value : Bool)
  | int (value : Int)
  /-- A number with a fraction or an exponent, or one that is not finite. -/
  | real (value : Decimal)
  | str (text : Text)
  | arr (items : List Json)
  | obj (members : List (Text × Json))
deriving Inhabited

namespace Json

/-- The value of the last member with a name. -/
def lookup (name : Text) : List (Text × Json) → Option Json
  | [] => none
  | (key, value) :: rest =>
    match lookup name rest with
    | some later => some later
    | none => if key = name then some value else none

/-- A later member with the same name wins. -/
theorem lookup_append (name : Text) (first second : List (Text × Json)) :
    lookup name (first ++ second) = (lookup name second).or (lookup name first) := by
  induction first with
  | nil => simp only [List.nil_append, lookup, Option.or_none]
  | cons member rest ih =>
    obtain ⟨key, value⟩ := member
    simp only [List.cons_append, lookup, ih]
    cases lookup name second <;> cases lookup name rest <;> rfl

/-! ## Paths -/

/-- One step from a value to a part of it. -/
inductive Step where
  /-- To the member with a name. -/
  | key (name : Text)
  /-- To the item at a place, counted from zero. -/
  | index (place : Nat)
deriving DecidableEq

/-- The way from a document to a part of it. -/
abbrev Path := List Step

namespace Path

/-- The steps of a path written out, each with its separator in front. -/
def renderSteps : Path → Text
  | [] => []
  | .key name :: rest => "." ++ name ++ renderSteps rest
  | .index place :: rest => "[" ++ Text.ofNat place ++ "]" ++ renderSteps rest

/-- A path as it is shown: names are separated by dots and places stand in
brackets. -/
def render : Path → Text
  | .key name :: rest => name ++ renderSteps rest
  | path => renderSteps path

end Path

/-- The part of a value that a path leads to. -/
def at? : Json → Path → Option Json
  | value, [] => some value
  | .obj members, .key name :: rest => (lookup name members).bind (at? · rest)
  | .arr items, .index place :: rest => items[place]?.bind (at? · rest)
  | _, _ => none

end Json

end HookScript
