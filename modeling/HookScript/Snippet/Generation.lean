import HookScript.Snippet.Hook
import HookScript.Snippet.Probe

/-!
# Snippets of selections

The snippet of a field or method declares its class and then probes or hooks the
member.  The snippet of a class declares the class, probes every field, and hooks
every method except the initialiser of the class, which nothing can call.  The
first line of every block is the declaration, or is left empty where the class
has been declared.
-/

namespace HookScript

/-- A class as scripts get hold of it. -/
def Owner.handle (owner : Owner) : Handle := ⟨owner.rawName, owner.aliasName⟩

/-- Whether a block stands on its own or follows the declaration of its class. -/
inductive Placement where
  | standalone
  | embedded
deriving DecidableEq

def Placement.firstLine (placement : Placement) (handle : Handle) : Text :=
  match placement with
  | .standalone => handle.declaration
  | .embedded => []

namespace Snippet

def method (placement : Placement) (member : Member JavaMethod) : Composing Text := do
  let hook ← Hook.compose member
  return hook.text (placement.firstLine hook.handle)

def field (placement : Placement) (member : Member JavaField) : Composing Text := do
  let probe ← Probe.compose member
  return probe.text (placement.firstLine probe.handle)

def cls (view : ClassView) : Composing Text := do
  let probes ← view.fields.mapM (field .embedded)
  let hooked := view.methods.filter fun member => !member.item.isStaticInitializer
  let hooks ← hooked.mapM (method .embedded)
  return List.intercalate [.ofChar '\n']
    (view.toOwner.handle.declaration :: (probes ++ hooks))

/-- The snippet of what is there to be referred to. -/
def reference {α : Type} (missing : Missing) (compose : α → Composing Text) :
    Option α → Composing Text
  | some target => compose target
  | none => throw missing

/-! ## Generating -/

/-- The kinds of references. -/
inductive Subject where
  | cls
  | method
  | field
deriving DecidableEq

def Subject.fullName : Subject → Text
  | .cls => "fridagen.model.ClassRef"
  | .method => "fridagen.model.MethodRef"
  | .field => "fridagen.model.FieldRef"

/-- Why there is no snippet of a selection. -/
inductive Failure where
  /-- This kind of thing cannot be selected. -/
  | unsupported (kind : ForeignKind)
  /-- The selected element lacks something that the snippet needs. -/
  | incomplete (subject : Subject) (missing : Missing)
deriving DecidableEq

def Failure.message : Failure → Text
  | .unsupported kind => "Unsupported node type: " ++ kind.fullName
  | .incomplete subject missing =>
    "failed to generate snippet for " ++ subject.fullName ++ ": " ++ missing.message

/-- A snippet on its own; what is missing for it is told of its subject. -/
def complete (subject : Subject) (snippet : Composing Text) : Except Failure Text :=
  match snippet.runFresh with
  | .ok text => .ok text
  | .error missing => .error (.incomplete subject missing)

def generate : Selection → Except Failure Text
  | .cls view? => complete .cls (reference .rawName cls view?)
  | .method method? => complete .method (reference .owner (method .standalone) method?)
  | .field field? => complete .field (reference .owner (field .standalone) field?)
  | .foreign thing => .error (.unsupported thing.kind)

end Snippet

end HookScript
