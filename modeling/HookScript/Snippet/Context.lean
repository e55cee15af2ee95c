import HookScript.Program.Catalog
import HookScript.Program.Ownership
import HookScript.Program.Selection

/-!
# Methods as first seen

While scripts are put together, the methods of a class are looked up by raw name
again and again.  A context indexes the methods of a class by their raw names when
it is first asked for some of them, and keeps the index; methods that the class
gains later are not seen through that context.
-/

namespace HookScript

/-! ## Methods by raw name -/

/-- Methods by raw name.  Those of one name are in the order in which they were
added. -/
abbrev MethodIndex := Catalog (List JavaMethod)

namespace MethodIndex

def named (index : MethodIndex) (name : Text) : List JavaMethod := (index.get? name).getD []

/-- Adds a method behind the others of its raw name. -/
def add (index : MethodIndex) (method : JavaMethod) : MethodIndex :=
  index.insert method.rawName (index.named method.rawName ++ [method])

/-- The index of a list of methods. -/
def ofMethods (methods : List JavaMethod) : MethodIndex := methods.foldl add .empty

theorem named_add (index : MethodIndex) (method : JavaMethod) (name : Text) :
    (index.add method).named name =
      index.named name ++ if method.rawName = name then [method] else [] := by
  simp only [add, named, Catalog.get?_insert]
  by_cases same : name = method.rawName
  · simp only [same, if_true, Option.getD_some]
  · simp only [if_neg same, if_neg (Ne.symm same), List.append_nil]

theorem named_foldl_add (index : MethodIndex) (methods : List JavaMethod) (name : Text) :
    (methods.foldl add index).named name =
      index.named name ++ methods.filter fun method => method.rawName = name := by
  induction methods generalizing index with
  | nil => exact (List.append_nil _).symm
  | cons method rest ih =>
    rw [List.foldl_cons, ih, named_add, List.filter_cons, List.append_assoc]
    by_cases same : method.rawName = name
    · simp only [same, if_true, decide_true, List.singleton_append]
    · simp only [same, if_false, decide_false, List.nil_append, Bool.false_eq_true]

/-- An index has the methods of a raw name that the list has, in the same order. -/
@[simp]
theorem named_ofMethods (methods : List JavaMethod) (name : Text) :
    (ofMethods methods).named name = methods.filter fun method => method.rawName = name :=
  named_foldl_add .empty methods name

end MethodIndex

/-! ## Contexts -/

/-- The indices of the classes that have been asked about. -/
structure Context where
  seen : List (ClassId × MethodIndex)

namespace Context

def empty : Context := ⟨[]⟩

/-- The index of the methods of a class through a context. -/
def indexOf (context : Context) (owner : Owner) : MethodIndex :=
  (context.seen.lookup owner.id).getD (.ofMethods owner.methods)

/-- The context after it was asked for methods of a class. -/
def consult (context : Context) (owner : Owner) : Context :=
  ⟨(owner.id, context.indexOf owner) :: context.seen⟩

def methodsNamed (context : Context) (owner : Owner) (name : Text) : List JavaMethod :=
  (context.indexOf owner).named name

@[simp]
theorem indexOf_empty (owner : Owner) : empty.indexOf owner = .ofMethods owner.methods := rfl

/-- A class that has been asked about keeps its index. -/
theorem indexOf_consult_of_id_eq (context : Context) {owner other : Owner}
    (same : other.id = owner.id) :
    (context.consult owner).indexOf other = context.indexOf owner := by
  simp only [indexOf, consult, List.lookup_cons, same, beq_self_eq_true, Option.getD_some]

/-- Asking about one class does not affect the others. -/
theorem indexOf_consult_of_id_ne (context : Context) {owner other : Owner}
    (different : other.id ≠ owner.id) :
    (context.consult owner).indexOf other = context.indexOf other := by
  simp only [indexOf, consult, List.lookup_cons, beq_false_of_ne different]

end Context

/-! ## Composing with a context -/

/-- A step of putting a script together: it may find something missing, and it
may ask for methods even then. -/
abbrev Composing := ExceptT Missing (StateM Context)

namespace Composing

/-- Runs a step with a context, and gives the context after it. -/
def runWith {α : Type} (context : Context) (step : Composing α) : Except Missing α × Context :=
  step.run context

/-- Runs a step on its own. -/
def runFresh {α : Type} (step : Composing α) : Except Missing α := (step.runWith .empty).1

/-- The owner of a member, which has to be there. -/
def ownerOf {α : Type} (member : Member α) : Composing Owner :=
  match member.owner? with
  | some owner => return owner
  | none => throw .methods

def methodsNamed (owner : Owner) (name : Text) : Composing (List JavaMethod) := do
  let context ← get
  set (context.consult owner)
  return context.methodsNamed owner name

end Composing

end HookScript
