import HookScript.Proofs.Snippet.Lines

/-!
# Selectors in hooks

The opening line of a hook names the method by its key and then, if there are others of
that name, by a selector.  The key is any text, so it may look like a selector itself;
but it stands in a string literal, and what stands behind the literal is either the
selector or the assignment to the method.

Two selectors are the same text exactly if their types are selected alike one by one.
-/

namespace HookScript

open Script

/-! ## Texts of selectors -/

theorem Hook.overload_of_selector? {hook : Hook} {types : List JavaType}
    (selects : hook.selector? = some (types.map JavaType.overloadArgument)) :
    hook.overload = JavaType.selector types := by
  rw [Hook.overload, selects]
  rfl

namespace JavaType

/-- Selectors of types that were read from some texts are equal exactly if the types are
as many and, one by one, the same or else a primitive type and a class with its name.
Every type has an argument, and between its quotes there is no quote, backslash, comma,
parenthesis or blank. -/
theorem selectors_eq_iff {first second : List JavaType}
    (read : ∀ type ∈ first, ∃ text, parse text = .ok type)
    (read' : ∀ type ∈ second, ∃ text, parse text = .ok type) :
    (∀ hook : Hook, hook.selector? = some (first.map overloadArgument) →
      hook.overload = selector first) ∧
    (selector first = selector second ↔ List.Forall₂ SelectedAlike first second) ∧
    ∀ type ∈ first, type.hasOverloadArgument = true ∧
      ∃ inside, type.overloadArgument = "'" ++ inside ++ "'" ∧
        ∀ c ∈ inside, c ∉ closingMarks ∧ c.isBlank = false := by
  have wellFormed : ∀ {types : List JavaType}, (∀ type ∈ types, ∃ text, parse text = .ok type) →
      ∀ type ∈ types, type.WellFormed := by
    intro types read type listed
    rcases read type listed with ⟨text, parsed⟩
    exact wellFormed_of_parse parsed
  refine ⟨fun hook => Hook.overload_of_selector?,
    selector_eq_iff (wellFormed read) (wellFormed read'), ?_⟩
  intro type listed
  have well := wellFormed read type listed
  refine ⟨?_, type.selectionName, rfl, fun c => clean_selectionName well⟩
  rw [hasOverloadArgument, well.hasSignature, Bool.true_or]

/-- A class named like a primitive type, which is selected like it, and arrays of the two, which
are told apart. -/
theorem selectors_eq_iff_namesakes :
    selector [primitive .int, ⟨.object "a.B", 1⟩] = selector [object "int", ⟨.object "a.B", 1⟩] ∧
      selector [⟨.primitive .int, 1⟩] ≠ selector [⟨.object "int", 1⟩] := by
  have number : parse "int" = .ok (primitive .int) := rfl
  have numbers : parse "int[]" = .ok ⟨.primitive .int, 1⟩ := rfl
  have namesake : parse "Lint;" = .ok (object "int") := rfl
  have namesakes : parse "[Lint;" = .ok ⟨.object "int", 1⟩ := rfl
  have classes : parse "a.B[]" = .ok ⟨.object "a.B", 1⟩ := rfl
  have pair : ∀ type ∈ [primitive .int, ⟨.object "a.B", 1⟩], ∃ text, parse text = .ok type :=
    List.forall_mem_cons.mpr ⟨⟨_, number⟩, List.forall_mem_singleton.mpr ⟨_, classes⟩⟩
  have pair' : ∀ type ∈ [object "int", ⟨.object "a.B", 1⟩], ∃ text, parse text = .ok type :=
    List.forall_mem_cons.mpr ⟨⟨_, namesake⟩, List.forall_mem_singleton.mpr ⟨_, classes⟩⟩
  have single : ∀ type ∈ [⟨.primitive .int, 1⟩], ∃ text, parse text = .ok type :=
    List.forall_mem_singleton.mpr ⟨_, numbers⟩
  have single' : ∀ type ∈ [⟨.object "int", 1⟩], ∃ text, parse text = .ok type :=
    List.forall_mem_singleton.mpr ⟨_, namesakes⟩
  refine ⟨(selectors_eq_iff pair pair').2.1.mpr (by decide), fun same => ?_⟩
  exact absurd ((selectors_eq_iff single single').2.1.mp same) (by decide)

end JavaType

/-! ## Reading selectors -/

namespace Hook

/-- What follows the key of the method in a block that hooks it. -/
def behindKey? (block : Text) : Option Text := do
  let line ← (block.splitAtEach '\n')[1]?
  let literal ← Text.dropPrefix? "[\"" (line.dropWhile fun c => c ≠ .ofChar '[')
  let (_, after) ← Literal.read '\x22' literal
  Text.dropPrefix? "]" after

/-- Whether a block that hooks a method selects one of several. -/
def hasSelector (block : Text) : Bool :=
  ((behindKey? block).bind (Text.dropPrefix? ".overload(")).isSome

/-- What follows what selects the method. -/
def assignment (parameters : List Text) : Text :=
  ".implementation = function (" ++ List.intercalate ", " parameters ++ ") \x7b"

variable {hook : Hook} {block firstLine : Text}

theorem behindKey?_of_lines (wellFormed : hook.WellFormed)
    (lines : block.splitAtEach '\n' = hook.lines firstLine) :
    behindKey? block = some (hook.overload ++ assignment hook.parameters) := by
  have second : (block.splitAtEach '\n')[1]? = some hook.openingLine := by
    rw [lines]
    rfl
  have shape : hook.openingLine = hook.handle.variableName ++ .ofChar '[' :: .ofChar '\x22' ::
      (StringLiteral.escape hook.key ++ .ofChar '\x22' :: .ofChar ']' ::
        (hook.overload ++ assignment hook.parameters)) := by
    simp only [openingLine, target, keyLiteral, assignment, parameterList, List.append_assoc]
    rfl
  have noBracket : .ofChar '[' ∉ hook.handle.variableName :=
    not_mem_of_isIdentifier wellFormed.variableName (by decide)
  have dropped : Text.dropPrefix? "[\"" (hook.openingLine.dropWhile fun c => c ≠ .ofChar '[') =
      some (StringLiteral.escape hook.key ++ .ofChar '\x22' :: .ofChar ']' ::
        (hook.overload ++ assignment hook.parameters)) := by
    rw [shape, Text.dropWhile_append_mark noBracket]
    rfl
  have literal := StringLiteral.read_escape (Or.inl rfl) hook.key
    (.ofChar ']' :: (hook.overload ++ assignment hook.parameters))
  refine Option.bind_eq_some_iff.mpr ⟨hook.openingLine, second, ?_⟩
  refine Option.bind_eq_some_iff.mpr ⟨_, dropped, ?_⟩
  exact Option.bind_eq_some_iff.mpr ⟨_, literal, rfl⟩

/-- The second letter tells a selector from the assignment. -/
theorem hasSelector_of_lines (wellFormed : hook.WellFormed)
    (lines : block.splitAtEach '\n' = hook.lines firstLine) :
    hasSelector block = hook.selector?.isSome := by
  rw [hasSelector, behindKey?_of_lines wellFormed lines, overload]
  cases hook.selector? with
  | none => rfl
  | some types => rfl

end Hook

end HookScript
