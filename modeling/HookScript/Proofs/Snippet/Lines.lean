import HookScript.CommandLine.Run
import HookScript.Proofs.Script.Inline
import HookScript.Proofs.Snippet.Composition
import Mathlib.Algebra.GroupWithZero.Nat

/-!
# Lines of snippets

Whatever the names in a class are, its snippet has the lines that were written
and no others, because no part of a line can break it.  So the number of lines
is known from the class, and the snippet can always be encoded.
-/

namespace HookScript

open Script CommandLine

/-! ## Line buffers -/

namespace Script.LineBuffer

theorem foldl_line (buffer : LineBuffer) (texts : List Text) :
    texts.foldl line buffer =
      { buffer with lines := buffer.lines ++ texts.map buffer.indented } := by
  induction texts generalizing buffer with
  | nil => rw [List.map_nil, List.append_nil]; rfl
  | cons text rest ih =>
    have same : (buffer.line text).indented = buffer.indented := rfl
    rw [List.foldl_cons, ih, same, lines_line, List.append_assoc]
    rfl

theorem indented_of_level_zero {buffer : LineBuffer} (level : buffer.level = 0) (text : Text) :
    buffer.indented text = text := by
  rw [indented, level]
  by_cases empty : text = []
  · rw [if_pos empty, empty]
  · rw [if_neg empty]
    rfl

/-- What stands in front of a line at level one. -/
def indentation : Text := "    "

theorem indented_of_level_one {buffer : LineBuffer} (unit : buffer.unit = indentation)
    (level : buffer.level = 1) {text : Text} (nonempty : text ≠ []) :
    buffer.indented text = indentation ++ text := by
  rw [indented, level, unit, if_neg nonempty]
  rfl

end Script.LineBuffer

theorem Text.splitAtEach_lines {lines : List Text} (inside : ∀ line ∈ lines, line.Inline)
    (nonempty : lines ≠ []) :
    splitAtEach '\n' (List.intercalate [.ofChar '\n'] lines) = lines :=
  splitAtEach_intercalate (fun line listed => (inside line listed).newline_not_mem) nonempty

/-! ## Blocks -/

namespace Hook

variable {hook : Hook} {firstLine : Text}

def openingLine (hook : Hook) : Text :=
  hook.target ++ ".implementation = function (" ++ hook.parameterList ++ ") \x7b"

def lines (hook : Hook) (firstLine : Text) : List Text :=
  firstLine :: hook.openingLine ::
    (hook.body.map (LineBuffer.indentation ++ ·) ++ [Text.ofString "\x7d;"])

theorem ne_nil_of_mem_body : ∀ line ∈ hook.body, line ≠ [] := by
  have logged : ∀ message : Text, logLine message ≠ [] := fun _ => nofun
  unfold body
  cases hook.returnsValue with
  | false =>
    refine List.forall_mem_cons.mpr ⟨logged _, List.forall_mem_cons.mpr ⟨nofun, ?_⟩⟩
    exact List.forall_mem_singleton.mpr (logged _)
  | true =>
    refine List.forall_mem_cons.mpr ⟨logged _, List.forall_mem_cons.mpr ⟨nofun, ?_⟩⟩
    exact List.forall_mem_cons.mpr ⟨logged _, List.forall_mem_singleton.mpr nofun⟩

theorem text_eq (hook : Hook) (firstLine : Text) :
    hook.text firstLine = List.intercalate [.ofChar '\n'] (hook.lines firstLine) := by
  let start := ((LineBuffer.empty.line firstLine).line hook.openingLine).indent 1
  have body : hook.body.map start.indented = hook.body.map (LineBuffer.indentation ++ ·) :=
    List.map_congr_left fun line listed =>
      LineBuffer.indented_of_level_one rfl rfl (ne_nil_of_mem_body line listed)
  have flat : ∀ text, LineBuffer.empty.indented text = text :=
    LineBuffer.indented_of_level_zero rfl
  have whole : ((hook.body.foldl LineBuffer.line start).indent (-1)).line "\x7d;" =
      { LineBuffer.empty with lines := hook.lines firstLine } := by
    rw [LineBuffer.foldl_line, body]
    change LineBuffer.mk _ _ ([LineBuffer.empty.indented firstLine,
      LineBuffer.empty.indented hook.openingLine] ++ _ ++ [LineBuffer.empty.indented "\x7d;"]) = _
    rw [flat, flat, flat]
    rfl
  exact congrArg LineBuffer.output whole

theorem length_lines (hook : Hook) (firstLine : Text) :
    (hook.lines firstLine).length = if hook.returnsValue then 7 else 6 := by
  rw [lines, body]
  cases hook.returnsValue <;> rfl

theorem getLast?_body (hook : Hook) :
    hook.body.getLast? = some (Text.ofString "return result;") ↔ hook.returnsValue = true := by
  rw [body]
  cases hook.returnsValue with
  | true => exact ⟨fun _ => rfl, fun _ => rfl⟩
  | false =>
    refine ⟨fun last => ?_, nofun⟩
    cases congrArg List.head? (Option.some.inj last)

/-- The last line of the body stands in front of the closing brace. -/
theorem getLast?_dropLast_lines (hook : Hook) (firstLine : Text) :
    (hook.lines firstLine).dropLast.getLast? = some (Text.ofString "    return result;") ↔
      hook.returnsValue = true := by
  have last : (hook.lines firstLine).dropLast.getLast? =
      hook.body.getLast?.map (LineBuffer.indentation ++ ·) := by
    rw [lines, body]
    cases hook.returnsValue <;> rfl
  have shown : some (Text.ofString "    return result;") =
      (some (Text.ofString "return result;")).map (LineBuffer.indentation ++ ·) := rfl
  have indented : Function.Injective (LineBuffer.indentation ++ ·) :=
    fun _ _ same => List.append_cancel_left same
  rw [last, shown, (Option.map_injective indented).eq_iff, getLast?_body]

/-! ### What the lines hold -/

theorem WellFormed.inline_parameterList (wellFormed : hook.WellFormed) :
    hook.parameterList.Inline :=
  Text.Inline.intercalate (by decide) fun name listed =>
    Text.inline_of_isIdentifier (wellFormed.parameters name listed)

theorem WellFormed.inline_overload (wellFormed : hook.WellFormed) : hook.overload.Inline := by
  unfold overload
  split
  next arguments selects =>
    have each : ∀ argument ∈ arguments, argument.Inline := by
      intro argument listed
      rcases wellFormed.selector? arguments selects argument listed with ⟨type, sound, rfl⟩
      exact JavaType.inline_overloadArgument sound
    have listing := Text.Inline.intercalate (by decide : Text.Inline ", ") each
    exact (Text.Inline.append (by decide) listing).append (by decide)
  next => exact nofun

theorem WellFormed.inline_openingLine (wellFormed : hook.WellFormed) : hook.openingLine.Inline := by
  have variableName := Text.inline_of_isIdentifier wellFormed.variableName
  have key : hook.keyLiteral.Inline := StringLiteral.inline_escape hook.key
  have target : hook.target.Inline :=
    (((variableName.append (by decide)).append key).append (by decide)).append
      wellFormed.inline_overload
  exact ((target.append (by decide)).append wellFormed.inline_parameterList).append (by decide)

theorem WellFormed.inline_call (wellFormed : hook.WellFormed) : hook.call.Inline := by
  have key : hook.keyLiteral.Inline := StringLiteral.inline_escape hook.key
  have callee : Text.Inline ("this[\"" ++ hook.keyLiteral ++ "\"](") :=
    (Text.Inline.append (by decide) key).append (by decide)
  exact (callee.append wellFormed.inline_parameterList).append (by decide)

theorem inline_logLine {message : Text} (inside : message.Inline) : (logLine message).Inline := by
  have enclosed : (TemplateLiteral.enclose message).Inline :=
    (Text.Inline.append (by decide : Text.Inline [TemplateLiteral.backtick]) inside).append
      (by decide)
  exact (Text.Inline.append (by decide) enclosed).append (by decide)

theorem inline_substitution {name : Text} (inside : name.Inline) :
    (TemplateLiteral.substitution name).Inline :=
  (Text.Inline.append (by decide) inside).append (by decide)

theorem WellFormed.inline_displayLiteral (wellFormed : hook.WellFormed) :
    hook.displayLiteral.Inline := by
  have variableName := Text.inline_of_isIdentifier wellFormed.variableName
  have display := TemplateLiteral.inline_escape (StringLiteral.inline_escape hook.display)
  exact (variableName.append (by decide)).append display

theorem WellFormed.inline_argumentLog (wellFormed : hook.WellFormed) :
    hook.argumentLog.Inline := by
  have entry : ∀ entry ∈ hook.parameters.map argumentEntry, entry.Inline := by
    intro entry listed
    rcases List.mem_map.mp listed with ⟨name, inParameters, rfl⟩
    have declared := Text.inline_of_isIdentifier (wellFormed.parameters name inParameters)
    exact (declared.append (by decide)).append (inline_substitution declared)
  have listing := Text.Inline.intercalate (by decide : Text.Inline ", ") entry
  unfold argumentLog
  split
  · exact nofun
  · exact Text.Inline.append (by decide) listing

theorem WellFormed.inline_startLine (wellFormed : hook.WellFormed) : hook.startLine.Inline := by
  have named := Text.Inline.append (by decide : Text.Inline "start [Method] ")
    wellFormed.inline_displayLiteral
  exact inline_logLine ((named.append (by decide)).append wellFormed.inline_argumentLog)

theorem WellFormed.inline_endLine (wellFormed : hook.WellFormed) {result : Text}
    (inside : result.Inline) : (hook.endLine result).Inline := by
  have named := Text.Inline.append (by decide : Text.Inline "end   [Method] ")
    wellFormed.inline_displayLiteral
  exact inline_logLine ((named.append (by decide)).append inside)

theorem WellFormed.inline_body (wellFormed : hook.WellFormed) : ∀ line ∈ hook.body, line.Inline := by
  have called := wellFormed.inline_call.append (by decide : Text.Inline ";")
  have bound := (Text.Inline.append (by decide : Text.Inline "let result = ")
    wellFormed.inline_call).append (by decide : Text.Inline ";")
  have start := wellFormed.inline_startLine
  unfold body
  cases hook.returnsValue with
  | false =>
    refine List.forall_mem_cons.mpr ⟨start, List.forall_mem_cons.mpr ⟨called, ?_⟩⟩
    exact List.forall_mem_singleton.mpr (wellFormed.inline_endLine (by decide))
  | true =>
    refine List.forall_mem_cons.mpr ⟨start, List.forall_mem_cons.mpr ⟨bound, ?_⟩⟩
    have finish := wellFormed.inline_endLine (inline_substitution (by decide : Text.Inline "result"))
    exact List.forall_mem_cons.mpr ⟨finish, List.forall_mem_singleton.mpr (by decide)⟩

theorem WellFormed.inline_lines (wellFormed : hook.WellFormed) (inside : firstLine.Inline) :
    ∀ line ∈ hook.lines firstLine, line.Inline := by
  refine List.forall_mem_cons.mpr ⟨inside, List.forall_mem_cons.mpr
    ⟨wellFormed.inline_openingLine, List.forall_mem_append.mpr ⟨?_, ?_⟩⟩⟩
  · intro line listed
    rcases List.mem_map.mp listed with ⟨statement, inBody, rfl⟩
    exact Text.Inline.append (by decide) (wellFormed.inline_body statement inBody)
  · exact List.forall_mem_singleton.mpr (by decide)

end Hook

namespace Probe

variable {probe : Probe} {firstLine : Text}

def lines (probe : Probe) (firstLine : Text) : List Text :=
  [firstLine, probe.readLine, probe.logLine, []]

theorem text_eq (probe : Probe) (firstLine : Text) :
    probe.text firstLine = List.intercalate [.ofChar '\n'] (probe.lines firstLine) := by
  have flat : ∀ text, LineBuffer.empty.indented text = text :=
    LineBuffer.indented_of_level_zero rfl
  have whole : (((LineBuffer.empty.line firstLine).line probe.readLine).line
      probe.logLine).line [] = { LineBuffer.empty with lines := probe.lines firstLine } := by
    change LineBuffer.mk _ _ [LineBuffer.empty.indented firstLine,
      LineBuffer.empty.indented probe.readLine, LineBuffer.empty.indented probe.logLine,
      LineBuffer.empty.indented []] = _
    rw [flat, flat, flat, flat]
    rfl
  exact congrArg LineBuffer.output whole

theorem WellFormed.inline_lines (wellFormed : probe.WellFormed) (inside : firstLine.Inline) :
    ∀ line ∈ probe.lines firstLine, line.Inline := by
  have className := Text.inline_of_isIdentifier wellFormed.className
  have variableName := Text.inline_of_isIdentifier wellFormed.variableName
  have key : Text.Inline (StringLiteral.escape probe.key) := StringLiteral.inline_escape probe.key
  have read : probe.readLine.Inline :=
    (((((Text.Inline.append (by decide) variableName).append (by decide)).append className).append
      (by decide)).append key).append (by decide)
  have named := ((Text.Inline.append (by decide : Text.Inline " [Field] ") className).append
    (by decide : Text.Inline ".")).append (TemplateLiteral.inline_escape key)
  have logged : probe.logLine.Inline :=
    Hook.inline_logLine ((named.append (by decide)).append (Hook.inline_substitution variableName))
  exact List.forall_mem_cons.mpr ⟨inside, List.forall_mem_cons.mpr ⟨read,
    List.forall_mem_cons.mpr ⟨logged, List.forall_mem_singleton.mpr nofun⟩⟩⟩

end Probe

/-! ## Snippets -/

/-- How many lines the hook of a method has: one more if it passes a result on. -/
def JavaMethod.lineCount (method : JavaMethod) : Nat := if method.returnsValue then 7 else 6

namespace JavaClass

variable {cls : JavaClass}

/-- The declaration, then the lines of every probe and every hook, each after an
empty line. -/
def lines (cls : JavaClass) : List Text :=
  cls.toOwner.handle.declaration ::
    (cls.fields.flatMap (fun field => (cls.probe field).lines []) ++
      cls.hooked.flatMap fun method => (cls.hook method).lines [])

theorem snippet_eq (cls : JavaClass) :
    cls.snippet = List.intercalate [.ofChar '\n'] cls.lines := by
  let blocks := [cls.toOwner.handle.declaration] ::
    (cls.fields.map (fun field => (cls.probe field).lines []) ++
      cls.hooked.map fun method => (cls.hook method).lines [])
  have nonempty : ∀ block ∈ blocks, block ≠ [] := by
    refine List.forall_mem_cons.mpr ⟨nofun, List.forall_mem_append.mpr ⟨?_, ?_⟩⟩
    · exact List.forall_mem_map.mpr fun _ _ => nofun
    · exact List.forall_mem_map.mpr fun _ _ => nofun
  have probes : cls.probeBlock .embedded =
      List.intercalate [.ofChar '\n'] ∘ fun field => (cls.probe field).lines [] :=
    funext fun field => (cls.probe field).text_eq []
  have hooks : cls.hookBlock .embedded =
      List.intercalate [.ofChar '\n'] ∘ fun method => (cls.hook method).lines [] :=
    funext fun method => (cls.hook method).text_eq []
  have joined := Text.intercalate_map_intercalate [.ofChar '\n'] nonempty
  rw [List.map_cons, List.map_append, List.map_map, List.map_map, ← probes, ← hooks,
    List.intercalate_singleton, List.flatten_cons, List.flatten_append, ← List.flatMap_def,
    ← List.flatMap_def] at joined
  exact joined

theorem length_lines (cls : JavaClass) : cls.lines.length =
    1 + 4 * cls.fields.length + (cls.hooked.map JavaMethod.lineCount).sum := by
  have probes : (fun field => ((cls.probe field).lines []).length) = fun _ => 4 := rfl
  have hooks : (fun method => ((cls.hook method).lines []).length) = JavaMethod.lineCount :=
    funext fun method => (cls.hook method).length_lines []
  rw [lines, List.length_cons, List.length_append, List.length_flatMap, List.length_flatMap, probes,
    hooks, List.map_const', List.sum_replicate_nat]
  omega

theorem WellFormed.inline_declaration (wellFormed : cls.WellFormed) :
    cls.toOwner.handle.declaration.Inline := by
  have variableName := Text.inline_of_isIdentifier wellFormed.aliasName
  have bound := (Text.Inline.append (by decide : Text.Inline "let ") variableName).append
    (by decide : Text.Inline " = Java.use(\"")
  exact (bound.append (StringLiteral.inline_escape cls.rawName)).append (by decide)

theorem WellFormed.inline_firstLine (wellFormed : cls.WellFormed) (placement : Placement) :
    (placement.firstLine cls.toOwner.handle).Inline := by
  cases placement with
  | standalone => exact wellFormed.inline_declaration
  | embedded => exact nofun

theorem splitAtEach_hookBlock (wellFormed : cls.WellFormed) (placement : Placement)
    {method : JavaMethod} (declared : method ∈ cls.methods) :
    (cls.hookBlock placement method).splitAtEach '\n' =
      (cls.hook method).lines (placement.firstLine cls.toOwner.handle) := by
  rw [hookBlock, Hook.text_eq]
  exact Text.splitAtEach_lines ((wellFormed.hook declared).inline_lines
    (wellFormed.inline_firstLine placement)) (List.cons_ne_nil _ _)

theorem splitAtEach_probeBlock (wellFormed : cls.WellFormed) (placement : Placement)
    {field : JavaField} (declared : field ∈ cls.fields) :
    (cls.probeBlock placement field).splitAtEach '\n' =
      (cls.probe field).lines (placement.firstLine cls.toOwner.handle) := by
  rw [probeBlock, Probe.text_eq]
  exact Text.splitAtEach_lines ((wellFormed.probe declared).inline_lines
    (wellFormed.inline_firstLine placement)) (List.cons_ne_nil _ _)

theorem WellFormed.inline_lines (wellFormed : cls.WellFormed) :
    ∀ line ∈ cls.lines, line.Inline := by
  refine List.forall_mem_cons.mpr ⟨wellFormed.inline_declaration,
    List.forall_mem_append.mpr ⟨?_, ?_⟩⟩
  · intro line listed
    rcases List.mem_flatMap.mp listed with ⟨field, declared, inProbe⟩
    exact (wellFormed.probe declared).inline_lines (by decide) line inProbe
  · intro line listed
    rcases List.mem_flatMap.mp listed with ⟨method, inHooked, inHook⟩
    exact (wellFormed.hook (List.mem_filter.mp inHooked).1).inline_lines (by decide) line inHook

end JavaClass

/-! ## Writing snippets -/

/-- Whether all that a run writes can be encoded. -/
def CommandLine.Outcome.Encodable (outcome : Outcome) : Prop :=
  outcome.standardOutput.toUtf8?.isSome = true ∧
    ∀ file ∈ outcome.written?, file.2.toUtf8?.isSome = true

/-- A text that shows its lines and nothing else, and can be written anywhere. -/
structure Text.Presentable (text : Text) : Prop where
  codePoints : ∀ c ∈ text, c = '\n' ∨ c.Inline
  controls : ∀ c ∈ text, c.IsControl → c = '\n' ∨ c = .delete
  separators : ∀ c ∈ text, c.val ≠ 0x2028 ∧ c.val ≠ 0x2029
  scalar : text.Scalar
  written : ∀ (surroundings : Surroundings) (outputFile? : Option Text) (notices : List Notice)
    (copied : List Text),
    (writeOutput surroundings outputFile? text notices copied).Encodable

theorem CommandLine.encodable_writeOutput {text : Text} (scalar : text.Scalar)
    (surroundings : Surroundings) (outputFile? : Option Text) (notices : List Notice)
    (copied : List Text) :
    (writeOutput surroundings outputFile? text notices copied).Encodable := by
  have ended : (Text.toUtf8? (text ++ "\n")).isSome = true :=
    Text.isSome_toUtf8?_iff.mpr (List.forall_mem_append.mpr ⟨scalar, Text.scalar_ofString "\n"⟩)
  have nothing : (Text.toUtf8? []).isSome = true := Text.isSome_toUtf8?_iff.mpr nofun
  unfold writeOutput
  split
  · exact ⟨ended, nofun⟩
  · split
    · exact ⟨nothing, nofun⟩
    · split
      · refine ⟨nothing, fun file same => ?_⟩
        cases same
        exact ended
      · exact ⟨nothing, nofun⟩

theorem Text.presentable_of_lines {lines : List Text} (inside : ∀ line ∈ lines, line.Inline) :
    Presentable (List.intercalate [.ofChar '\n'] lines) := by
  have codePoints : ∀ c ∈ List.intercalate [CodePoint.ofChar '\n'] lines, c = '\n' ∨ c.Inline := by
    intro c member
    rcases mem_intercalate member with newline | ⟨line, listed, inLine⟩
    · exact Or.inl (List.mem_singleton.mp newline)
    · exact Or.inr (inside line listed c inLine)
  have scalar : Scalar (List.intercalate [.ofChar '\n'] lines) := by
    intro c member
    rcases codePoints c member with rfl | inLine
    · exact CodePoint.isSurrogate_ofChar '\n'
    · exact inLine.isSurrogate
  refine ⟨codePoints, ?_, ?_, scalar, encodable_writeOutput scalar⟩
  · intro c member control
    exact (codePoints c member).imp_right fun inLine => inLine.eq_delete_of_isControl control
  · intro c member
    rcases codePoints c member with rfl | inLine
    · decide
    · exact inLine.ne_separator

namespace JavaClass

/-- No name of a class changes the lines of its snippet or keeps it from being
encoded. -/
theorem snippets_keep_lines {document : Json} {model : Model} {cls : JavaClass}
    (loaded : Model.ofJson document = .ok model) (listed : cls ∈ model.classes) :
    (∃ text, Snippet.generate (.cls (some cls.view)) = .ok text ∧ text.Presentable ∧
      text.splitAtEach '\n' = cls.lines ∧
      (text.splitAtEach '\n').length =
        1 + 4 * cls.fields.length + (cls.hooked.map JavaMethod.lineCount).sum) ∧
    (∀ field ∈ cls.fields, ∃ text,
      Snippet.generate (.field (some (cls.member field))) = .ok text ∧ text.Presentable ∧
        (text.splitAtEach '\n').length = 4) ∧
    (∀ method ∈ cls.methods, ∃ text,
      Snippet.generate (.method (some (cls.member method))) = .ok text ∧ text.Presentable ∧
        text.splitAtEach '\n' = (cls.hook method).lines cls.toOwner.handle.declaration) ∧
    ∀ method ∈ cls.methods, ∀ firstLine,
      ((cls.hook method).lines firstLine).length = method.lineCount ∧
        (((cls.hook method).lines firstLine).dropLast.getLast? =
          some (Text.ofString "    return result;") ↔ method.lineCount = 7) := by
  have wellFormed := Model.wellFormed_of_loaded loaded listed
  have declaration := wellFormed.inline_declaration
  refine ⟨⟨cls.snippet, generate_cls wellFormed.typed, ?_⟩, ?_, ?_, ?_⟩
  · have inside := wellFormed.inline_lines
    rw [snippet_eq, Text.splitAtEach_lines inside (List.cons_ne_nil _ _)]
    exact ⟨Text.presentable_of_lines inside, rfl, cls.length_lines⟩
  · intro field declared
    have inside := (wellFormed.probe declared).inline_lines declaration
    refine ⟨_, generate_field field, ?_⟩
    rw [splitAtEach_probeBlock wellFormed .standalone declared, probeBlock, Probe.text_eq]
    exact ⟨Text.presentable_of_lines inside, rfl⟩
  · intro method declared
    have inside := (wellFormed.hook declared).inline_lines declaration
    refine ⟨_, generate_method wellFormed.typed declared, ?_⟩
    rw [splitAtEach_hookBlock wellFormed .standalone declared, hookBlock, Hook.text_eq]
    exact ⟨Text.presentable_of_lines inside, rfl⟩
  · intro method _ firstLine
    refine ⟨(cls.hook method).length_lines firstLine, ?_⟩
    rw [Hook.getLast?_dropLast_lines, JavaMethod.lineCount]
    change method.returnsValue = true ↔ _
    cases method.returnsValue with
    | true => exact ⟨fun _ => rfl, fun _ => rfl⟩
    | false => exact ⟨nofun, nofun⟩

/-- A document with names that hold newlines, a lone surrogate and a backtick. -/
def wildDocument : Json :=
  .obj [("classes", .arr [.obj [("name", .str "a\nB"), ("alias", .str "B"),
    ("fields", .arr [.obj [("name", .str [.ofChar '\n', .ofNat 0xD800]), ("alias", .str "x")]]),
    ("methods", .arr [.obj [("name", .str "<clinit>")],
      .obj [("name", .str "f\n\x60"), ("args", .arr [.str "int[]"]), ("ret", .str "int")],
      .obj [("name", .str "f\n\x60")]])]])]

def wildClass : JavaClass where
  rawName := "a\nB"
  aliasName := "B"
  fields := [⟨[.ofChar '\n', .ofNat 0xD800], "x", none⟩]
  methods := [⟨"<clinit>", "<clinit>", [], .void, [], false⟩,
    ⟨"f\n\x60", "f\n\x60", [⟨.primitive .int, 1⟩], .primitive .int, ["p0"], false⟩,
    ⟨"f\n\x60", "f\n\x60", [], .void, [], false⟩]

theorem snippets_keep_lines_wild :
    ∃ text, Snippet.generate (.cls (some wildClass.view)) = .ok text ∧ text.Presentable ∧
      (text.splitAtEach '\n').length = 1 + 4 + (7 + 6) := by
  have loaded : Model.ofJson wildDocument = .ok (.ofClasses [wildClass]) := rfl
  rcases snippets_keep_lines loaded List.mem_cons_self with ⟨⟨text, made, whole, _, count⟩, _⟩
  exact ⟨text, made, whole, count⟩

/-- A delete character in a name is a control that its snippet holds as it is. -/
theorem exists_control_in_snippet :
    ∃ model cls text,
      Model.ofJson (.obj [("classes",
        .arr [.obj [("name", .str "a\x7Fb"), ("alias", .str "A")]])]) = .ok model ∧
      cls ∈ model.classes ∧ Snippet.generate (.cls (some cls.view)) = .ok text ∧
      ∃ c ∈ text, c ≠ '\n' ∧ c.IsControl := by
  let cls : JavaClass := ⟨"a\x7Fb", "A", [], []⟩
  exact ⟨.ofClasses [cls], cls, cls.snippet, rfl, List.mem_cons_self, rfl, .delete, by decide,
    by decide, by decide⟩

end JavaClass

end HookScript
