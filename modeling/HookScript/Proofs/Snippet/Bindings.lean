import HookScript.Proofs.Script.Scope
import HookScript.Proofs.Snippet.Lines

/-!
# Names that snippets bind

The snippet of a class declares a variable for the class and one for every field,
and the function of a hook has the arguments for parameters and declares a variable
for the result if there is one.  The names are those that `Script.Binds` reads off the
lines, where a line declares one variable at most, in front of all else.  So no raw name can
add a line to the snippet or pass for a parameter.  What a raw name of a field may add to
the line that reads the field is not looked at here.

Each of these names is checked to be one that can be declared, but they are not
compared with each other when a model is loaded.  So a scope binds a name twice
exactly if the model gives it twice.  Names that arguments get by default never
do that.
-/

namespace HookScript

open Script

/-- The names in the scope of the function of a hook. -/
def Hook.boundNames (hook : Hook) : List Text :=
  hook.parameters ++ if hook.returnsValue then [Text.ofString "result"] else []

/-- The names in the scope of the function that hooks a method. -/
def JavaMethod.boundNames (method : JavaMethod) : List Text :=
  method.argumentNames ++ if method.returnsValue then [Text.ofString "result"] else []

/-! ## Blocks -/

theorem binds_empty : Binds [[]] [] [] := binds_line rfl rfl

theorem Handle.binds_declaration {handle : Handle}
    (identifier : isIdentifier handle.variableName = true) :
    Binds [handle.declaration] [handle.variableName] [] := by
  have shape : handle.declaration = "let " ++ handle.variableName ++ " = " ++
      ("Java.use(\"" ++ StringLiteral.escape handle.rawName ++ "\");") := by
    simp only [declaration, List.append_assoc]
    rfl
  have declared : declaredName? handle.declaration = some handle.variableName := by
    rw [shape, declaredName?_let identifier]
  exact binds_line (parameters?_append _ rfl) declared

namespace Probe

variable {probe : Probe} {firstLine : Text} {outer : List Text}

theorem WellFormed.binds_readLine (wellFormed : probe.WellFormed) :
    Binds [probe.readLine] [probe.variableName] [] := by
  have shape : probe.readLine = "let " ++ probe.variableName ++ " = " ++
      (probe.handle.variableName ++ "." ++ StringLiteral.escape probe.key ++ ".value;") := by
    simp only [readLine, List.append_assoc]
  have declared : declaredName? probe.readLine = some probe.variableName := by
    rw [shape, declaredName?_let wellFormed.variableName]
  exact binds_line (parameters?_append _ rfl) declared

theorem binds_logLine (probe : Probe) : Binds [probe.logLine] [] [] :=
  binds_line (parameters?_append _ rfl) rfl

/-- A probe binds the variable of its field, whatever the key of the field is. -/
theorem WellFormed.binds_lines (wellFormed : probe.WellFormed) (first : Binds [firstLine] outer []) :
    Binds (probe.lines firstLine) (outer ++ [probe.variableName]) [] :=
  first.append (wellFormed.binds_readLine.append ((binds_logLine probe).append binds_empty))

end Probe

namespace Hook

variable {hook : Hook} {firstLine : Text} {outer : List Text}

theorem WellFormed.parameters?_openingLine (wellFormed : hook.WellFormed) :
    parameters? hook.openingLine = some hook.parameters := by
  have opens : (hook.target ++ Text.ofString ".implementation = function (").getLast? =
      some (.ofChar '(') := by
    rw [List.getLast?_append]
    rfl
  exact parameters?_function opens wellFormed.parameters

theorem declaredName?_indented (line : Text) :
    declaredName? (LineBuffer.indentation ++ line) = declaredName? line := rfl

theorem declaredNames_body (hook : Hook) : hook.body.filterMap declaredName? =
    if hook.returnsValue then [Text.ofString "result"] else [] := by
  have start : declaredName? hook.startLine = none := rfl
  have called : declaredName? (hook.call ++ ";") = none := rfl
  have finish : ∀ result, declaredName? (hook.endLine result) = none := fun _ => rfl
  have bound : declaredName? ("let result = " ++ hook.call ++ ";") = some (Text.ofString "result") := by
    have identifier : isIdentifier (Text.ofString "result") = true := by decide
    have declared := declaredName?_let identifier (hook.call ++ ";")
    rw [← List.append_assoc] at declared
    exact declared
  unfold body
  cases hook.returnsValue with
  | false =>
    rw [if_neg Bool.false_ne_true, List.filterMap_cons_none start, List.filterMap_cons_none called,
      List.filterMap_cons_none (finish _)]
    rfl
  | true =>
    rw [if_pos rfl, List.filterMap_cons_none start, List.filterMap_cons_some bound,
      List.filterMap_cons_none (finish _)]
    rfl

/-- A hook binds the names of its function, and nothing outside. -/
theorem WellFormed.binds_lines (wellFormed : hook.WellFormed) (first : Binds [firstLine] outer []) :
    Binds (hook.lines firstLine) outer [hook.boundNames] := by
  have statements : declaredName? ∘ (LineBuffer.indentation ++ ·) = declaredName? :=
    funext declaredName?_indented
  have closesNone : ∀ line ∈ hook.body.map (LineBuffer.indentation ++ ·), line ≠ closingLine := by
    intro line listed closes
    rcases List.mem_map.mp listed with ⟨statement, _, rfl⟩
    exact absurd (List.cons.inj closes).1 (by decide)
  have function := binds_function wellFormed.parameters?_openingLine closesNone
  rw [List.filterMap_map, statements, declaredNames_body] at function
  have block := first.append function
  rw [List.append_nil] at block
  exact block

end Hook

namespace JavaClass

variable {cls : JavaClass}

theorem WellFormed.binds_declaration (wellFormed : cls.WellFormed) :
    Binds [cls.toOwner.handle.declaration] [cls.aliasName] [] :=
  Handle.binds_declaration wellFormed.aliasName

theorem WellFormed.binds_lines (wellFormed : cls.WellFormed) :
    Binds cls.lines (cls.aliasName :: cls.fields.map JavaField.aliasName)
      (cls.hooked.map JavaMethod.boundNames) := by
  have probes : Binds (cls.fields.flatMap fun field => (cls.probe field).lines [])
      (cls.fields.flatMap fun field => [field.aliasName]) (cls.fields.flatMap fun _ => []) :=
    Binds.flatMap fun field declared => (wellFormed.probe declared).binds_lines binds_empty
  have hooks : Binds (cls.hooked.flatMap fun method => (cls.hook method).lines [])
      (cls.hooked.flatMap fun _ => []) (cls.hooked.flatMap fun method => [method.boundNames]) :=
    Binds.flatMap fun method listed =>
      (wellFormed.hook (List.mem_filter.mp listed).1).binds_lines binds_empty
  have none : ∀ {α β : Type} (items : List α), (items.flatMap fun _ => ([] : List β)) = [] :=
    fun items => List.flatMap_eq_nil_iff.mpr fun _ _ => rfl
  have whole := wellFormed.binds_declaration.append (probes.append hooks)
  rw [none, none, ← List.map_eq_flatMap, ← List.map_eq_flatMap, List.append_nil] at whole
  exact whole

/-! ## Snippets -/

theorem WellFormed.scopes_snippet (wellFormed : cls.WellFormed) : Scopes.ofText cls.snippet =
    ⟨cls.aliasName :: cls.fields.map JavaField.aliasName, cls.hooked.map JavaMethod.boundNames⟩ := by
  have binds := wellFormed.binds_lines
  rw [← Text.splitAtEach_lines wellFormed.inline_lines (List.cons_ne_nil _ _), ← snippet_eq] at binds
  exact binds.ofText

theorem WellFormed.scopes_hookBlock (wellFormed : cls.WellFormed) {method : JavaMethod}
    (declared : method ∈ cls.methods) : Scopes.ofText (cls.hookBlock .standalone method) =
      ⟨[cls.aliasName], [method.boundNames]⟩ := by
  have binds := (wellFormed.hook declared).binds_lines wellFormed.binds_declaration
  have lines : (cls.hookBlock .standalone method).splitAtEach '\n' =
      (cls.hook method).lines cls.toOwner.handle.declaration :=
    splitAtEach_hookBlock wellFormed .standalone declared
  rw [← lines] at binds
  exact binds.ofText

/-- A document whose aliases and argument names all differ. -/
def namedDocument : Json :=
  .obj [("classes", .arr [.obj [("name", .str "com.example.Foo"),
    ("fields", .arr [.obj [("name", .str "a"), ("alias", .str "counter")], .obj [("name", .str "b")]]),
    ("methods", .arr [.obj [("name", .str "b"), ("args", .arr [.str "int", .str "int"]),
      ("argNames", .arr [.str "count", .str "limit"]), ("ret", .str "int")]])]])]

def namedMethod : JavaMethod :=
  ⟨"b", "b", [.primitive .int, .primitive .int], .primitive .int, ["count", "limit"], false⟩

def namedClass : JavaClass :=
  ⟨"com.example.Foo", "Foo", [⟨"a", "counter", none⟩, ⟨"b", "b", none⟩], [namedMethod]⟩

/-! ### Variables outside of functions -/

/-- The snippet of a class declares the variables of the class and of the fields
outside of its functions, and they differ from each other exactly if the class and
the fields have different aliases. -/
theorem outer_names_nodup_iff {document : Json} {model : Model}
    (loaded : Model.ofJson document = .ok model) (listed : cls ∈ model.classes) :
    ∃ text, Snippet.generate (.cls (some cls.view)) = .ok text ∧
      (Scopes.ofText text).outer = cls.aliasName :: cls.fields.map JavaField.aliasName ∧
      ((Scopes.ofText text).outer.Nodup ↔
        cls.aliasName ∉ cls.fields.map JavaField.aliasName ∧
          (cls.fields.map JavaField.aliasName).Nodup) := by
  have wellFormed := Model.wellFormed_of_loaded loaded listed
  refine ⟨cls.snippet, generate_cls wellFormed.typed, ?_⟩
  rw [wellFormed.scopes_snippet]
  exact ⟨rfl, List.nodup_cons⟩

theorem outer_names_nodup_iff_named :
    ∃ text, Snippet.generate (.cls (some namedClass.view)) = .ok text ∧
      (Scopes.ofText text).outer.Nodup := by
  have loaded : Model.ofJson namedDocument = .ok (.ofClasses [namedClass]) := rfl
  rcases outer_names_nodup_iff loaded List.mem_cons_self with ⟨text, made, _, apart⟩
  exact ⟨text, made, apart.mpr (by decide)⟩

/-- By default a class and its field of the same simple name have the same alias, so
that the snippet declares one variable twice. -/
theorem exists_redeclared_variable :
    ∃ model cls text, Model.ofJson (.obj [("classes", .arr [.obj [("name", .str "a.a"),
        ("fields", .arr [.obj [("name", .str "a")]])]])]) = .ok model ∧
      cls ∈ model.classes ∧ Snippet.generate (.cls (some cls.view)) = .ok text ∧
      ¬(Scopes.ofText text).outer.Nodup := by
  let cls : JavaClass := ⟨"a.a", "a", [⟨"a", "a", none⟩], []⟩
  have loaded : Model.ofJson (.obj [("classes", .arr [.obj [("name", .str "a.a"),
      ("fields", .arr [.obj [("name", .str "a")]])]])]) = .ok (.ofClasses [cls]) := rfl
  have wellFormed := Model.wellFormed_of_loaded loaded List.mem_cons_self
  refine ⟨.ofClasses [cls], cls, cls.snippet, loaded, List.mem_cons_self,
    generate_cls wellFormed.typed, ?_⟩
  rw [wellFormed.scopes_snippet]
  decide

/-! ### Names in functions -/

theorem nodup_boundNames_iff {method : JavaMethod} : method.boundNames.Nodup ↔
    method.argumentNames.Nodup ∧
      (method.returnsValue = true → Text.ofString "result" ∉ method.argumentNames) := by
  rw [JavaMethod.boundNames]
  cases method.returnsValue with
  | false =>
    rw [if_neg Bool.false_ne_true, List.append_nil]
    exact ⟨fun distinct => ⟨distinct, nofun⟩, And.left⟩
  | true =>
    rw [if_pos rfl, List.nodup_append]
    constructor
    · intro parts
      exact ⟨parts.1, fun _ member => parts.2.2 _ member _ List.mem_cons_self rfl⟩
    · intro parts
      refine ⟨parts.1, List.pairwise_singleton _ _, ?_⟩
      intro name member result isResult same
      rw [same, List.mem_singleton.mp isResult] at member
      exact parts.2 rfl member

theorem result_not_mem_defaultArgumentNames (count : Nat) :
    Text.ofString "result" ∉ Loading.defaultArgumentNames count := by
  intro member
  rcases List.mem_map.mp member with ⟨place, _, same⟩
  exact absurd (List.cons.inj same).1 (by decide)

/-- The function of a hook binds the arguments of its method, and the result if there
is one.  These names differ exactly if the arguments are named differently and none
of them is named like the result; arguments without given names always are. -/
theorem function_names_nodup_iff {document : Json} {model : Model}
    (loaded : Model.ofJson document = .ok model) (listed : cls ∈ model.classes) :
    (∃ text, Snippet.generate (.cls (some cls.view)) = .ok text ∧
      (Scopes.ofText text).functions = cls.hooked.map JavaMethod.boundNames) ∧
    ∀ method ∈ cls.methods,
      (∃ text, Snippet.generate (.method (some (cls.member method))) = .ok text ∧
        (Scopes.ofText text).functions = [method.boundNames]) ∧
      (method.boundNames.Nodup ↔ method.argumentNames.Nodup ∧
        (method.returnsValue = true → Text.ofString "result" ∉ method.argumentNames)) ∧
      (method.argumentNames = Loading.defaultArgumentNames method.argumentTypes.length →
        method.boundNames.Nodup) := by
  have wellFormed := Model.wellFormed_of_loaded loaded listed
  refine ⟨⟨cls.snippet, generate_cls wellFormed.typed, ?_⟩, ?_⟩
  · rw [wellFormed.scopes_snippet]
  · intro method declared
    refine ⟨⟨_, generate_method wellFormed.typed declared, ?_⟩, nodup_boundNames_iff, ?_⟩
    · rw [wellFormed.scopes_hookBlock declared]
    · intro default
      have distinct := Loading.nodup_defaultArgumentNames method.argumentTypes.length
      have noResult := result_not_mem_defaultArgumentNames method.argumentTypes.length
      rw [← default] at distinct noResult
      exact nodup_boundNames_iff.mpr ⟨distinct, fun _ => noResult⟩

theorem function_names_nodup_iff_named :
    (∃ text, Snippet.generate (.method (some (namedClass.member namedMethod))) = .ok text ∧
      (Scopes.ofText text).functions = [[Text.ofString "count", Text.ofString "limit",
        Text.ofString "result"]]) ∧ namedMethod.boundNames.Nodup := by
  have loaded : Model.ofJson namedDocument = .ok (.ofClasses [namedClass]) := rfl
  have named := (function_names_nodup_iff loaded List.mem_cons_self).2 namedMethod List.mem_cons_self
  exact ⟨named.1, named.2.1.mpr (by decide)⟩

example :
    let method : JavaMethod := ⟨"f", "f", [.primitive .int, .primitive .int], .void, ["x", "x"], false⟩
    ¬method.boundNames.Nodup := by decide

/-- An argument may be named like the variable of the result. -/
theorem exists_redeclared_parameter :
    ∃ model cls method text, Model.ofJson (.obj [("classes", .arr [.obj [("name", .str "A"),
        ("methods", .arr [.obj [("name", .str "f"), ("args", .arr [.str "int"]),
          ("argNames", .arr [.str "result"]), ("ret", .str "int")]])]])]) = .ok model ∧
      cls ∈ model.classes ∧ method ∈ cls.methods ∧
      Snippet.generate (.method (some (cls.member method))) = .ok text ∧
      ∃ names ∈ (Scopes.ofText text).functions, ¬names.Nodup := by
  let method : JavaMethod := ⟨"f", "f", [.primitive .int], .primitive .int, ["result"], false⟩
  let cls : JavaClass := ⟨"A", "A", [], [method]⟩
  have loaded : Model.ofJson (.obj [("classes", .arr [.obj [("name", .str "A"),
      ("methods", .arr [.obj [("name", .str "f"), ("args", .arr [.str "int"]),
        ("argNames", .arr [.str "result"]), ("ret", .str "int")]])]])]) =
      .ok (.ofClasses [cls]) := rfl
  have wellFormed := Model.wellFormed_of_loaded loaded List.mem_cons_self
  refine ⟨.ofClasses [cls], cls, method, _, loaded, List.mem_cons_self, List.mem_cons_self,
    generate_method wellFormed.typed List.mem_cons_self, ?_⟩
  rw [wellFormed.scopes_hookBlock List.mem_cons_self]
  exact ⟨method.boundNames, List.mem_cons_self, by decide⟩

end JavaClass

end HookScript
