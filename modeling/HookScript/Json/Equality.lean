import HookScript.Json.Basic
import HookScript.Number.Nearest

/-!
# Equality of values

Two JSON values are equal if they mean the same.  Numbers are compared by value,
however they are written, and the booleans count as 0 and 1.  Lists are compared
item by item.  Objects are compared name by name: neither the order of the
members counts, nor a member that a later one of its name replaces.

What is not a number is not equal to itself on its own; as a part of equal lists
or objects it is.
-/

namespace HookScript.Json

/-- The number that a value is. -/
def toNumber? : Json → Option ExactNumber
  | .bool value => some (.ofInt (if value then 1 else 0))
  | .int value => some (.ofInt value)
  | .real value => some value.nearest
  | _ => none

/-- Whether a value is the number that is none. -/
def isNotANumber : Json → Bool
  | .real .notANumber => true
  | _ => false

def equalNumbers (first second : Json) : Bool :=
  match first.toNumber?, second.toNumber? with
  | some first, some second => first.equals second
  | _, _ => false

mutual

def equals : Json → Json → Bool
  | .null, .null => true
  | .str first, .str second => first = second
  | .arr first, .arr second => equalItems first second
  | .obj first, .obj second =>
    equalMembers first second && second.all fun member => (lookup member.1 first).isSome
  | first, second => equalNumbers first second

def equalItems : List Json → List Json → Bool
  | [], [] => true
  | first :: rest, second :: more =>
    ((first.isNotANumber && second.isNotANumber) || equals first second) && equalItems rest more
  | _, _ => false

/-- Whether every member that counts is equal to the one of its name in another
object. -/
def equalMembers : List (Text × Json) → List (Text × Json) → Bool
  | [], _ => true
  | (name, first) :: rest, others =>
    ((lookup name rest).isSome ||
      match lookup name others with
      | some second => (first.isNotANumber && second.isNotANumber) || equals first second
      | none => false) &&
      equalMembers rest others

end

end HookScript.Json
