import HookScript.Proofs.Snippet.Lines

/-!
# Hooks are told apart by their text

The text of a hook is cut apart line by line, and each line at marks that the part
in front of them cannot hold: a name holds no blank and no bracket, an argument of
a selector no comma and no parenthesis, and an escaped text no quote that would
end it.  What the cutting yields is all that the hook says, except that texts
that are escaped are known only by their UTF-16 code units.
-/

namespace HookScript

open Script

/-- Hooks that say the same to a script engine. -/
structure Hook.Alike (first second : Hook) : Prop where
  variableName : first.handle.variableName = second.handle.variableName
  rawName : first.handle.rawName.units16 = second.handle.rawName.units16
  key : first.key.units16 = second.key.units16
  display : first.display.units16 = second.display.units16
  parameters : first.parameters = second.parameters
  returnsValue : first.returnsValue = second.returnsValue
  selector? : first.selector? = second.selector?

/-! ## Cutting lines apart -/

theorem Handle.declaration_inj {first second : Handle}
    (declared : isIdentifier first.variableName = true)
    (declared' : isIdentifier second.variableName = true)
    (same : first.declaration = second.declaration) :
    first.variableName = second.variableName ∧ first.rawName.units16 = second.rawName.units16 := by
  have shape : ∀ handle : Handle, handle.declaration = Text.ofString "let " ++
      (handle.variableName ++ .ofChar ' ' :: (Text.ofString "= Java.use(\"" ++
        (StringLiteral.escape handle.rawName ++ .ofChar '\x22' :: Text.ofString ");"))) := by
    intro handle
    simp only [declaration, List.append_assoc]
    rfl
  rw [shape, shape] at same
  rcases Text.append_mark_inj_first (not_mem_of_isIdentifier declared (by decide))
    (not_mem_of_isIdentifier declared' (by decide)) (List.append_cancel_left same) with
    ⟨variableName, behind⟩
  exact ⟨variableName,
    (StringLiteral.units16_append_quote_inj (List.append_cancel_left behind)).1⟩

namespace Hook

variable {first second : Hook}

theorem WellFormed.fresh_argument {hook : Hook} (wellFormed : hook.WellFormed) {arguments : List Text}
    (selects : hook.selector? = some arguments) :
    ∀ argument ∈ arguments, argument ≠ [] ∧ .ofChar ',' ∉ argument ∧ .ofChar ')' ∉ argument := by
  intro argument listed
  rcases wellFormed.selector? arguments selects argument listed with ⟨type, sound, rfl⟩
  exact ⟨type.overloadArgument_ne_nil,
    JavaType.not_mem_overloadArgument sound (by decide) (by decide),
    JavaType.not_mem_overloadArgument sound (by decide) (by decide)⟩

theorem selector?_append_inj (wellFirst : first.WellFormed) (wellSecond : second.WellFormed)
    {after after' : Text}
    (same : first.overload ++ (Text.ofString ".implementation" ++ after) =
      second.overload ++ (Text.ofString ".implementation" ++ after')) :
    first.selector? = second.selector? ∧ after = after' := by
  have present : ∀ {hook : Hook} {arguments : List Text} (rest : Text),
      hook.selector? = some arguments → hook.overload ++ rest = Text.ofString ".overload(" ++
        (List.intercalate (.ofChar ',' :: Text.ofString " ") arguments ++ .ofChar ')' :: rest) := by
    intro hook arguments rest selects
    simp only [overload, selects, List.append_assoc]
    rfl
  have absent : ∀ {hook : Hook}, hook.selector? = none → hook.overload = [] := by
    intro hook none
    simp only [overload, none]
  have closing : ∀ {hook : Hook} {arguments : List Text}, hook.WellFormed →
      hook.selector? = some arguments →
      .ofChar ')' ∉ List.intercalate (.ofChar ',' :: Text.ofString " ") arguments := by
    intro hook arguments wellFormed selects member
    rcases Text.mem_intercalate member with inGap | ⟨argument, listed, inside⟩
    · exact absurd inGap (by decide)
    · exact (wellFormed.fresh_argument selects argument listed).2.2 inside
  have fresh : ∀ {hook : Hook} {arguments : List Text}, hook.WellFormed →
      hook.selector? = some arguments →
      ∀ argument ∈ arguments, argument ≠ [] ∧ .ofChar ',' ∉ argument := by
    intro hook arguments wellFormed selects argument listed
    have parts := wellFormed.fresh_argument selects argument listed
    exact ⟨parts.1, parts.2.1⟩
  cases selects : first.selector? with
  | none =>
    cases selects' : second.selector? with
    | none =>
      rw [absent selects, absent selects'] at same
      exact ⟨rfl, List.append_cancel_left same⟩
    | some =>
      rw [absent selects, present _ selects'] at same
      cases (List.cons.inj (List.cons.inj same).2).1
  | some arguments =>
    cases selects' : second.selector? with
    | none =>
      rw [present _ selects, absent selects'] at same
      cases (List.cons.inj (List.cons.inj same).2).1
    | some arguments' =>
      rw [present _ selects, present _ selects'] at same
      rcases Text.append_mark_inj_first (closing wellFirst selects) (closing wellSecond selects')
        (List.append_cancel_left same) with ⟨listing, behind⟩
      have arguments_eq := Text.intercalate_inj (by decide) (fresh wellFirst selects)
        (fresh wellSecond selects') listing
      exact ⟨congrArg some arguments_eq, List.append_cancel_left behind⟩

theorem parameters_inj (wellFirst : first.WellFormed) (wellSecond : second.WellFormed)
    (same : first.parameterList = second.parameterList) : first.parameters = second.parameters := by
  have fresh : ∀ {hook : Hook}, hook.WellFormed →
      ∀ name ∈ hook.parameters, name ≠ [] ∧ .ofChar ',' ∉ name := by
    intro hook wellFormed name listed
    have declared := wellFormed.parameters name listed
    exact ⟨ne_nil_of_isIdentifier declared, not_mem_of_isIdentifier declared (by decide)⟩
  have noComma : .ofChar ',' ∉ Text.ofString " " := by decide
  exact Text.intercalate_inj noComma (fresh wellFirst) (fresh wellSecond) same

theorem openingLine_inj (wellFirst : first.WellFormed) (wellSecond : second.WellFormed)
    (same : first.openingLine = second.openingLine) :
    first.key.units16 = second.key.units16 ∧ first.selector? = second.selector? ∧
      first.parameters = second.parameters := by
  have shape : ∀ hook : Hook, hook.openingLine = hook.handle.variableName ++ .ofChar '[' ::
      .ofChar '\x22' :: (StringLiteral.escape hook.key ++ .ofChar '\x22' :: .ofChar ']' ::
        (hook.overload ++ (Text.ofString ".implementation" ++ (Text.ofString " = function (" ++
          (hook.parameterList ++ Text.ofString ") \x7b"))))) := by
    intro hook
    simp only [openingLine, target, keyLiteral, List.append_assoc]
    rfl
  rw [shape, shape] at same
  rcases Text.append_mark_inj_first
    (not_mem_of_isIdentifier wellFirst.variableName (by decide))
    (not_mem_of_isIdentifier wellSecond.variableName (by decide)) same with ⟨_, indexed⟩
  rcases StringLiteral.units16_append_quote_inj (List.cons.inj indexed).2 with ⟨key, bracket⟩
  rcases selector?_append_inj wellFirst wellSecond (List.cons.inj bracket).2 with
    ⟨selector?, function⟩
  have listing := List.append_cancel_right (List.append_cancel_left function)
  exact ⟨key, selector?, parameters_inj wellFirst wellSecond listing⟩

theorem startLine_inj (variableName : first.handle.variableName = second.handle.variableName)
    (parameters : first.parameters = second.parameters)
    (same : first.startLine = second.startLine) :
    first.display.units16 = second.display.units16 := by
  have argumentLog : first.argumentLog = second.argumentLog := by
    rw [Hook.argumentLog, Hook.argumentLog, parameters]
  have enclosed := List.append_cancel_left (List.append_cancel_right same)
  have message := List.append_cancel_right (List.cons.inj enclosed).2
  rw [argumentLog] at message
  have named := List.append_cancel_left (List.append_cancel_right (List.append_cancel_right message))
  rw [displayLiteral, displayLiteral, variableName] at named
  exact TemplateLiteral.escape_eq_iff.mp (List.append_cancel_left named)

theorem lines_eq (hook : Hook) (firstLine : Text) : ∃ rest, hook.lines firstLine =
    firstLine :: hook.openingLine :: (LineBuffer.indentation ++ hook.startLine) :: rest := by
  rw [lines, body]
  cases hook.returnsValue with
  | true => exact ⟨_, rfl⟩
  | false => exact ⟨_, rfl⟩

theorem alike_of_lines (wellFirst : first.WellFormed) (wellSecond : second.WellFormed)
    (same : first.lines first.handle.declaration = second.lines second.handle.declaration) :
    first.Alike second := by
  have counts := congrArg List.length same
  rcases first.lines_eq first.handle.declaration with ⟨rest, shape⟩
  rcases second.lines_eq second.handle.declaration with ⟨rest', shape'⟩
  rw [length_lines, length_lines] at counts
  rw [shape, shape'] at same
  rcases List.cons.inj same with ⟨declaration, same⟩
  rcases List.cons.inj same with ⟨opening, same⟩
  have start := List.append_cancel_left (List.cons.inj same).1
  rcases Handle.declaration_inj wellFirst.variableName wellSecond.variableName declaration with
    ⟨variableName, rawName⟩
  rcases openingLine_inj wellFirst wellSecond opening with ⟨key, selector?, parameters⟩
  have returnsValue : first.returnsValue = second.returnsValue := by
    cases returns : first.returnsValue <;> cases returns' : second.returnsValue <;>
      simp only [returns, returns'] at counts ⊢ <;> cases counts
  exact ⟨variableName, rawName, key, startLine_inj variableName parameters start, parameters,
    returnsValue, selector?⟩

theorem Alike.lines_eq (alike : first.Alike second) :
    first.lines first.handle.declaration = second.lines second.handle.declaration := by
  have declaration : first.handle.declaration = second.handle.declaration := by
    rw [Handle.declaration, Handle.declaration, alike.variableName,
      StringLiteral.escape_eq_iff.mpr alike.rawName]
  have keyLiteral : first.keyLiteral = second.keyLiteral :=
    StringLiteral.escape_eq_iff.mpr alike.key
  have displayLiteral : first.displayLiteral = second.displayLiteral := by
    rw [Hook.displayLiteral, Hook.displayLiteral, alike.variableName,
      TemplateLiteral.escape_eq_iff.mpr alike.display]
  simp only [lines, openingLine, target, overload, body, startLine, endLine, call, argumentLog,
    parameterList, declaration, keyLiteral, displayLiteral, alike.variableName, alike.parameters,
    alike.returnsValue, alike.selector?]

end Hook

/-! ## Methods of loaded classes -/

namespace JavaClass

variable {cls other : JavaClass} {method otherMethod : JavaMethod}

/-- Methods of two classes that agree in all that their hooks say. -/
structure HookedAlike (cls : JavaClass) (method : JavaMethod) (other : JavaClass)
    (otherMethod : JavaMethod) : Prop where
  aliasName : cls.aliasName = other.aliasName
  rawName : cls.rawName.units16 = other.rawName.units16
  lookupKey : method.lookupKey.units16 = otherMethod.lookupKey.units16
  shownName : method.shownName.units16 = otherMethod.shownName.units16
  argumentNames : method.argumentNames = otherMethod.argumentNames
  returnsValue : method.returnsValue = otherMethod.returnsValue
  overloads : cls.overloads method = other.overloads otherMethod
  selector : cls.overloads method = true →
    method.argumentTypes.map JavaType.overloadArgument =
      otherMethod.argumentTypes.map JavaType.overloadArgument

theorem selector?_hook_eq_iff :
    (cls.hook method).selector? = (other.hook otherMethod).selector? ↔
      cls.overloads method = other.overloads otherMethod ∧
        (cls.overloads method = true →
          method.argumentTypes.map JavaType.overloadArgument =
            otherMethod.argumentTypes.map JavaType.overloadArgument) := by
  have selects : ∀ (cls : JavaClass) (method : JavaMethod), (cls.hook method).selector? =
      if cls.overloads method then some (method.argumentTypes.map JavaType.overloadArgument)
      else none := fun _ _ => rfl
  rw [selects, selects]
  cases cls.overloads method <;> cases other.overloads otherMethod <;> simp

theorem alike_hook_iff :
    (cls.hook method).Alike (other.hook otherMethod) ↔ cls.HookedAlike method other otherMethod := by
  constructor
  · intro alike
    rcases selector?_hook_eq_iff.mp alike.selector? with ⟨overloads, selector⟩
    exact ⟨alike.variableName, alike.rawName, alike.key, alike.display, alike.parameters,
      alike.returnsValue, overloads, selector⟩
  · intro alike
    exact ⟨alike.aliasName, alike.rawName, alike.lookupKey, alike.shownName, alike.argumentNames,
      alike.returnsValue, selector?_hook_eq_iff.mpr ⟨alike.overloads, alike.selector⟩⟩

/-- Two methods have the same snippet exactly if they agree in all that their hooks
say.  The methods may belong to different classes, and these to different
models. -/
theorem method_snippet_determines_hook {document document' : Json} {model model' : Model}
    (loaded : Model.ofJson document = .ok model) (loaded' : Model.ofJson document' = .ok model')
    (listed : cls ∈ model.classes) (listed' : other ∈ model'.classes)
    (declared : method ∈ cls.methods) (declared' : otherMethod ∈ other.methods) :
    ∃ text text', Snippet.generate (.method (some (cls.member method))) = .ok text ∧
      Snippet.generate (.method (some (other.member otherMethod))) = .ok text' ∧
      (text = text' ↔ cls.HookedAlike method other otherMethod) := by
  have wellFormed := Model.wellFormed_of_loaded loaded listed
  have wellFormed' := Model.wellFormed_of_loaded loaded' listed'
  refine ⟨_, _, generate_method wellFormed.typed declared, generate_method wellFormed'.typed declared',
    ?_⟩
  rw [← alike_hook_iff]
  constructor
  · intro same
    have lines := congrArg (Text.splitAtEach '\n') same
    rw [splitAtEach_hookBlock wellFormed .standalone declared,
      splitAtEach_hookBlock wellFormed' .standalone declared'] at lines
    exact Hook.alike_of_lines (wellFormed.hook declared) (wellFormed'.hook declared') lines
  · intro alike
    rw [hookBlock, hookBlock, Hook.text_eq, Hook.text_eq]
    exact congrArg (List.intercalate [.ofChar '\n']) alike.lines_eq

/-- A document that names a method by one code point beyond the basic plane, or by
the two halves of its surrogate pair. -/
def pairDocument (rawName : Text) : Json :=
  .obj [("classes", .arr [.obj [("name", .str "A"),
    ("methods", .arr [.obj [("name", .str rawName), ("alias", .str "f")]])]])]

def pairMethod (rawName : Text) : JavaMethod := ⟨rawName, "f", [], .void, [], false⟩

def pairClass (rawName : Text) : JavaClass := ⟨"A", "A", [], [pairMethod rawName]⟩

/-- Only the code units of a name show in a snippet. -/
theorem method_snippet_determines_hook_pair :
    ∃ text, Snippet.generate (.method (some ((pairClass [.ofNat 0x10000]).member
        (pairMethod [.ofNat 0x10000])))) = .ok text ∧
      Snippet.generate (.method (some ((pairClass [.ofNat 0xD800, .ofNat 0xDC00]).member
        (pairMethod [.ofNat 0xD800, .ofNat 0xDC00])))) = .ok text := by
  have loaded : Model.ofJson (pairDocument [.ofNat 0x10000]) =
      .ok (.ofClasses [pairClass [.ofNat 0x10000]]) := rfl
  have loaded' : Model.ofJson (pairDocument [.ofNat 0xD800, .ofNat 0xDC00]) =
      .ok (.ofClasses [pairClass [.ofNat 0xD800, .ofNat 0xDC00]]) := rfl
  rcases method_snippet_determines_hook loaded loaded' List.mem_cons_self List.mem_cons_self
    List.mem_cons_self List.mem_cons_self with ⟨text, text', made, made', compare⟩
  have same : text = text' :=
    compare.mpr ⟨rfl, rfl, by decide, rfl, rfl, rfl, by decide, nofun⟩
  exact ⟨text, made, same ▸ made'⟩

end JavaClass

end HookScript
