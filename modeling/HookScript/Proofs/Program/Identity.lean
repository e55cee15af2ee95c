import HookScript.Program.Class
import HookScript.Proofs.JavaType.Signature

/-!
# Identities of methods

The identity of a method runs its raw name, the signatures of its arguments and
the signature of its result together.  Raw names are arbitrary, so they may look
like signatures and hold parentheses of their own.  No signature holds one,
however, and so the last pair of parentheses is always the one around the
arguments.
-/

namespace HookScript.JavaMethod

open JavaType

theorem parenthesis_not_mem_signature {type : JavaType} (wellFormed : type.WellFormed) :
    .ofChar '(' ∉ type.signature ∧ .ofChar ')' ∉ type.signature := by
  constructor
  · intro member
    exact absurd (mem_signature wellFormed member) (by decide)
  · intro member
    exact absurd (mem_signature wellFormed member) (by decide)

theorem parenthesis_not_mem_flatMap {types : List JavaType}
    (wellFormed : ∀ type ∈ types, type.WellFormed) :
    .ofChar '(' ∉ types.flatMap signature ∧ .ofChar ')' ∉ types.flatMap signature := by
  constructor
  · intro member
    rcases List.mem_flatMap.mp member with ⟨type, listed, inside⟩
    exact (parenthesis_not_mem_signature (wellFormed type listed)).1 inside
  · intro member
    rcases List.mem_flatMap.mp member with ⟨type, listed, inside⟩
    exact (parenthesis_not_mem_signature (wellFormed type listed)).2 inside

/-- All types that a method mentions are well-formed. -/
structure Typed (method : JavaMethod) : Prop where
  arguments : ∀ type ∈ method.argumentTypes, type.WellFormed
  result : method.returnType.WellFormed

/-- Two methods that agree in all that overloading looks at. -/
structure SameSignature (first second : JavaMethod) : Prop where
  rawName : first.rawName = second.rawName
  argumentTypes : first.argumentTypes = second.argumentTypes
  returnType : first.returnType = second.returnType

theorem identity_eq_iff {first second : JavaMethod} (typedFirst : first.Typed)
    (typedSecond : second.Typed) :
    first.identity = second.identity ↔ SameSignature first second := by
  have parts : ∀ method : JavaMethod, method.identity = method.rawName ++ .ofChar '(' ::
      (method.argumentTypes.flatMap signature ++ .ofChar ')' :: method.returnType.signature) := by
    intro method
    simp only [identity, List.append_assoc]
    rfl
  have noOpening : ∀ {method : JavaMethod}, method.Typed → .ofChar '(' ∉
      method.argumentTypes.flatMap signature ++ .ofChar ')' :: method.returnType.signature := by
    intro method typed member
    rcases List.mem_append.mp member with inArguments | behind
    · exact (parenthesis_not_mem_flatMap typed.arguments).1 inArguments
    · rcases List.mem_cons.mp behind with closing | inResult
      · exact absurd closing (by decide)
      · exact (parenthesis_not_mem_signature typed.result).1 inResult
  constructor
  · intro same
    rw [parts, parts] at same
    rcases Text.append_mark_inj_last (noOpening typedFirst) (noOpening typedSecond) same with
      ⟨rawName, behind⟩
    rcases Text.append_mark_inj_first (parenthesis_not_mem_flatMap typedFirst.arguments).2
      (parenthesis_not_mem_flatMap typedSecond.arguments).2 behind with ⟨arguments, result⟩
    exact ⟨rawName, flatMap_signature_inj typedFirst.arguments typedSecond.arguments arguments,
      signature_inj typedFirst.result typedSecond.result result⟩
  · intro same
    rw [identity, identity, same.rawName, same.argumentTypes, same.returnType]

end HookScript.JavaMethod
