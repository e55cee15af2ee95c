import HookScript.Proofs.Snippet.Lines

/-!
# Log lines say what they should

Every log line of a block is read back the way a script engine reads it.  The
literal ends where the line does, its value is the fixed text with the names put
in, and it substitutes the variables that it should and no others.  So no name in
a model can end a literal early or make a substitution of its own.

A dollar sign at the end of a name could start a substitution only if a brace
followed it, which is never so: names are followed by fixed text that starts
otherwise.
-/

namespace HookScript

open Script Literal

/-! ## Log lines of a block -/

namespace Snippet

def logStart : Text := "console.log(\x60"

/-- What the template of a log line is made of, and what stands behind it; a line
that does not log has none. -/
def readLogLine? (line : Text) : Option (Option (List Item × Text)) :=
  (Text.dropPrefix? logStart (line.dropWhile fun c => c = ' ')).map (read TemplateLiteral.backtick)

/-- The templates of the log lines of a block. -/
def readLog (block : Text) : List (Option (List Item × Text)) :=
  (block.splitAtEach '\n').filterMap readLogLine?

/-- The names that are substituted, in order. -/
def substitutions (items : List Item) : List Text :=
  items.filterMap fun
    | .unit _ => none
    | .substitution name => some name

theorem substitutions_plain (text : Text) : substitutions (plain text) = [] := by
  rw [substitutions, plain, List.filterMap_map]
  exact List.filterMap_eq_nil_iff.mpr fun _ _ => rfl

theorem substitutions_append (first second : List Item) :
    substitutions (first ++ second) = substitutions first ++ substitutions second :=
  List.filterMap_append

theorem readLogLine?_indented (line : Text) :
    readLogLine? (LineBuffer.indentation ++ line) = readLogLine? line := rfl

/-- A statement that starts with a name and an index is no log line. -/
theorem readLogLine?_of_index {name : Text} (nonempty : name ≠ [])
    (codePoints : ∀ c ∈ name, isNameCodePoint c = true) (rest : Text) :
    readLogLine? (name ++ .ofChar '[' :: rest) = none := by
  have starts : ∀ r : Text, (logStart ++ r).dropWhile isNameCodePoint =
      Text.ofString ".log(\x60" ++ r := fun r =>
    List.dropWhile_append_of_pos
      (by decide : ∀ c ∈ Text.ofString "console", isNameCodePoint c = true)
  have stops : (name ++ .ofChar '[' :: rest).dropWhile isNameCodePoint = .ofChar '[' :: rest :=
    List.dropWhile_append_of_pos codePoints
  have noBlank : (name ++ .ofChar '[' :: rest).dropWhile (fun c : CodePoint => c = ' ') =
      name ++ .ofChar '[' :: rest := by
    cases name with
    | nil => exact (nonempty rfl).elim
    | cons c name =>
      refine List.dropWhile_cons_of_neg fun blank => ?_
      have valid := codePoints c List.mem_cons_self
      rw [of_decide_eq_true blank] at valid
      exact absurd valid (by decide)
  rw [readLogLine?, noBlank, Option.map_eq_none_iff]
  cases found : Text.dropPrefix? logStart (name ++ .ofChar '[' :: rest) with
  | none => rfl
  | some r =>
    have same := Text.dropPrefix?_eq_some.mp found
    rw [same, starts] at stops
    cases (List.cons.inj stops).1

end Snippet

/-! ## Templates -/

namespace Script.Literal

variable {text tail : Text} {items : List Item}

/-- A text that is read as some items wherever it stands in a template. -/
def Reads (text : Text) (items : List Item) : Prop :=
  ∀ before, run TemplateLiteral.backtick ⟨before, .content⟩ text = ⟨before ++ items, .content⟩

/-- A text in which nothing means anything to the reader. -/
def Unmarked (text : Text) : Prop := ∀ c ∈ text, c ∉ templateMarks ∧ c ≠ '$'

instance : DecidablePred Unmarked := fun text => List.decidableBAll _ text

theorem reads_nil : Reads [] [] := by
  intro before
  rw [List.append_nil]
  rfl

theorem Reads.append {others : List Item} (first : Reads text items) (second : Reads tail others) :
    Reads (text ++ tail) (items ++ others) := by
  intro before
  rw [run_append, first before, second, List.append_assoc]

theorem Reads.intercalate {α : Type} {gap : Text} {gapItems : List Item} {texts : α → Text}
    {read : α → List Item} {values : List α} (between : Reads gap gapItems)
    (each : ∀ value ∈ values, Reads (texts value) (read value)) :
    Reads (List.intercalate gap (values.map texts)) (List.intercalate gapItems (values.map read)) := by
  induction values with
  | nil => exact reads_nil
  | cons value values ih =>
    rcases List.forall_mem_cons.mp each with ⟨here, later⟩
    cases values with
    | nil =>
      rw [List.map_singleton, List.map_singleton, List.intercalate_singleton,
        List.intercalate_singleton]
      exact here
    | cons next values =>
      simp only [List.map_cons, List.intercalate_cons_cons] at ih ⊢
      exact (here.append between).append (ih later)

theorem reads_unmarked (unmarked : Unmarked text) : Reads text (plain text) := by
  induction text with
  | nil => exact reads_nil
  | cons c text ih =>
    rcases List.forall_mem_cons.mp unmarked with ⟨⟨noMark, notDollar⟩, later⟩
    have notBacktick : c ≠ TemplateLiteral.backtick := fun same => noMark (same ▸ by decide)
    have notBackslash : c ≠ '\\' := fun same => noMark (same ▸ by decide)
    have one : Reads [c] (plain [c]) := by
      intro before
      change readContent TemplateLiteral.backtick before c = _
      rw [readContent, if_neg notBacktick, if_neg notBackslash, if_pos rfl, if_neg notDollar]
    rw [plain_cons]
    exact one.append (ih later)

/-- A name may end in a dollar sign, so it depends on what follows. -/
theorem reads_name_append {name : Text} (codePoints : ∀ c ∈ name, isNameCodePoint c = true)
    (follows : NoBrace tail) (reads : Reads tail items) :
    Reads (name ++ tail) (plain name ++ items) := by
  have marks : ∀ mark ∈ templateMarks, isNameCodePoint mark = false := by decide
  have unmarked : ∀ c ∈ name, c ∉ templateMarks := fun c member mark =>
    Bool.false_ne_true ((marks c mark).symm.trans (codePoints c member))
  intro before
  rw [run_template_plain unmarked follows, reads, List.append_assoc]

theorem reads_escape_append (name : Text) (follows : NoBrace tail) (reads : Reads tail items) :
    Reads (TemplateLiteral.escape (StringLiteral.escape name) ++ tail) (plain name ++ items) := by
  intro before
  rw [TemplateLiteral.run_escape name follows, reads, List.append_assoc]

theorem reads_substitution {name : Text} (codePoints : ∀ c ∈ name, isNameCodePoint c = true) :
    Reads (TemplateLiteral.substitution name) [.substitution name] := by
  intro before
  refine run_substitution fun member => ?_
  exact absurd (codePoints _ member) (by decide)

/-- A class and a member of it, as log lines name them. -/
theorem reads_named {lead className : Text} (name : Text) (unmarked : Unmarked lead)
    (codePoints : ∀ c ∈ className, isNameCodePoint c = true) (follows : NoBrace tail)
    (unmarkedTail : Unmarked tail) :
    Reads (lead ++ (className ++ "." ++
        TemplateLiteral.escape (StringLiteral.escape name)) ++ tail)
      (plain (lead ++ className ++ "." ++ name ++ tail)) := by
  have behind := reads_escape_append name follows (reads_unmarked unmarkedTail)
  have dotted := (reads_unmarked (by decide : Unmarked ".")).append behind
  have whole := (reads_unmarked unmarked).append
    (reads_name_append codePoints ⟨'.', rfl, by decide⟩ dotted)
  simp only [plain_append, List.append_assoc] at whole ⊢
  exact whole

end Script.Literal

/-! ## Log lines of hooks and probes -/

namespace Snippet

theorem readLogLine?_logLine {message : Text} {items : List Item} (reads : Reads message items) :
    readLogLine? (Hook.logLine message) = some (some (items, Text.ofString ");")) := by
  have shape : Hook.logLine message =
      logStart ++ (message ++ TemplateLiteral.backtick :: Text.ofString ");") := by
    simp only [Hook.logLine, TemplateLiteral.enclose, List.append_assoc, List.cons_append]
    rfl
  have noBlank : (Hook.logLine message).dropWhile (fun c : CodePoint => c = ' ') =
      Hook.logLine message := rfl
  rw [readLogLine?, noBlank, Text.dropPrefix?_eq_some.mpr shape, Option.map_some,
    read_of_run (reads [])]
  rfl

/-- The arguments in a log line, each by its name and a substitution of it. -/
def argumentItems (names : List Text) : List Item :=
  if names = [] then []
  else plain ": " ++ List.intercalate (plain ", ")
    (names.map fun name => plain (name ++ "=") ++ [.substitution name])

theorem substitutions_argumentItems (names : List Text) :
    substitutions (argumentItems names) = names := by
  have entries : substitutions (List.intercalate (plain ", ")
      (names.map fun name => plain (name ++ "=") ++ [.substitution name])) = names := by
    induction names with
    | nil => rfl
    | cons name names ih =>
      have here : substitutions (plain (name ++ "=") ++ [.substitution name]) = [name] := by
        rw [substitutions_append, substitutions_plain]
        rfl
      cases names with
      | nil => rw [List.map_singleton, List.intercalate_singleton, here]
      | cons next names =>
        simp only [List.map_cons, List.intercalate_cons_cons] at ih ⊢
        rw [substitutions_append, substitutions_append, here, substitutions_plain, ih]
        rfl
  unfold argumentItems
  split
  next none =>
    rw [none]
    rfl
  next => rw [substitutions_append, substitutions_plain, entries, List.nil_append]

/-- The result in a log line. -/
def resultItems (returnsValue : Bool) : List Item :=
  if returnsValue then [.substitution "result"] else plain "void"

end Snippet

namespace Hook

variable {hook : Hook} {firstLine : Text}

open Snippet

theorem WellFormed.codePoints_variableName (wellFormed : hook.WellFormed) :
    ∀ c ∈ hook.handle.variableName, isNameCodePoint c = true :=
  isNameCodePoint_of_isIdentifier wellFormed.variableName

theorem WellFormed.reads_argumentLog (wellFormed : hook.WellFormed) :
    Reads hook.argumentLog (argumentItems hook.parameters) := by
  have entry : ∀ name ∈ hook.parameters,
      Reads (argumentEntry name) (plain (name ++ "=") ++ [.substitution name]) := by
    intro name listed
    have codePoints := isNameCodePoint_of_isIdentifier (wellFormed.parameters name listed)
    have assigned := (reads_unmarked (by decide : Unmarked "=")).append
      (reads_substitution codePoints)
    have whole := reads_name_append codePoints ⟨'=', rfl, by decide⟩ assigned
    rw [argumentEntry, plain_append, List.append_assoc, List.append_assoc]
    exact whole
  unfold argumentLog argumentItems
  split
  · exact reads_nil
  · exact (reads_unmarked (by decide)).append
      (Reads.intercalate (reads_unmarked (by decide)) entry)

theorem WellFormed.reads_startLine (wellFormed : hook.WellFormed) :
    readLogLine? hook.startLine = some (some
      (plain ("start [Method] " ++ hook.handle.variableName ++ "." ++ hook.display ++ " is called") ++
        argumentItems hook.parameters, Text.ofString ");")) := by
  have follows : NoBrace " is called" := ⟨' ', rfl, by decide⟩
  have named := reads_named hook.display (by decide : Unmarked "start [Method] ")
    wellFormed.codePoints_variableName follows (by decide)
  exact readLogLine?_logLine (named.append wellFormed.reads_argumentLog)

theorem WellFormed.reads_endLine (wellFormed : hook.WellFormed) {result : Text}
    {items : List Item} (reads : Reads result items) :
    readLogLine? (hook.endLine result) = some (some
      (plain ("end   [Method] " ++ hook.handle.variableName ++ "." ++ hook.display ++ " result=") ++
        items, Text.ofString ");")) := by
  have follows : NoBrace " result=" := ⟨' ', rfl, by decide⟩
  have named := reads_named hook.display (by decide : Unmarked "end   [Method] ")
    wellFormed.codePoints_variableName follows (by decide)
  exact readLogLine?_logLine (named.append reads)

theorem readLogLine?_openingLine (wellFormed : hook.WellFormed) :
    readLogLine? hook.openingLine = none := by
  have shape : ∃ rest, hook.openingLine = hook.handle.variableName ++ .ofChar '[' :: rest := by
    refine ⟨Text.ofString "\"" ++ hook.keyLiteral ++ "\"]" ++ hook.overload ++
      ".implementation = function (" ++ hook.parameterList ++ ") \x7b", ?_⟩
    simp only [openingLine, target, List.append_assoc]
    rfl
  rcases shape with ⟨rest, shape⟩
  rw [shape]
  exact readLogLine?_of_index (ne_nil_of_isIdentifier wellFormed.variableName)
    wellFormed.codePoints_variableName rest

theorem WellFormed.readLog_lines (wellFormed : hook.WellFormed)
    (first : readLogLine? firstLine = none) :
    (hook.lines firstLine).filterMap readLogLine? =
      [some (plain ("start [Method] " ++ hook.handle.variableName ++ "." ++ hook.display ++
          " is called") ++ argumentItems hook.parameters, Text.ofString ");"),
        some (plain ("end   [Method] " ++ hook.handle.variableName ++ "." ++ hook.display ++
          " result=") ++ resultItems hook.returnsValue, Text.ofString ");")] := by
  have called : readLogLine? (hook.call ++ ";") = none := rfl
  have bound : readLogLine? ("let result = " ++ hook.call ++ ";") = none := rfl
  have statements : readLogLine? ∘ (LineBuffer.indentation ++ ·) = readLogLine? :=
    funext readLogLine?_indented
  rw [lines, List.filterMap_cons_none first,
    List.filterMap_cons_none (readLogLine?_openingLine wellFormed), List.filterMap_append,
    List.filterMap_map, statements, body]
  cases hook.returnsValue with
  | false =>
    have finish := wellFormed.reads_endLine (reads_unmarked (by decide : Unmarked "void"))
    rw [if_neg Bool.false_ne_true, List.filterMap_cons_some wellFormed.reads_startLine,
      List.filterMap_cons_none called, List.filterMap_cons_some finish]
    rfl
  | true =>
    have finish := wellFormed.reads_endLine
      (reads_substitution (by decide : ∀ c ∈ Text.ofString "result", isNameCodePoint c = true))
    rw [if_pos rfl, List.filterMap_cons_some wellFormed.reads_startLine,
      List.filterMap_cons_none bound, List.filterMap_cons_some finish]
    rfl

end Hook

theorem Probe.WellFormed.readLog_lines {probe : Probe} {firstLine : Text}
    (wellFormed : probe.WellFormed) (first : Snippet.readLogLine? firstLine = none) :
    (probe.lines firstLine).filterMap Snippet.readLogLine? =
      [some (plain (" [Field] " ++ probe.handle.variableName ++ "." ++ probe.key ++ ".value-> ") ++
        [.substitution probe.variableName], Text.ofString ");")] := by
  have className := isNameCodePoint_of_isIdentifier wellFormed.className
  have variableName := isNameCodePoint_of_isIdentifier wellFormed.variableName
  have follows : NoBrace ".value-> " := ⟨'.', rfl, by decide⟩
  have named := reads_named probe.key (by decide : Unmarked " [Field] ") className follows
    (by decide)
  have shape : probe.logLine = Hook.logLine (" [Field] " ++ (probe.handle.variableName ++ "." ++
      TemplateLiteral.escape (StringLiteral.escape probe.key)) ++ ".value-> " ++
      TemplateLiteral.substitution probe.variableName) := by
    simp only [logLine, Hook.logLine, List.append_assoc]
  have logged := Snippet.readLogLine?_logLine (named.append (reads_substitution variableName))
  have read : Snippet.readLogLine? probe.readLine = none := rfl
  rw [← shape] at logged
  rw [lines, List.filterMap_cons_none first, List.filterMap_cons_none read,
    List.filterMap_cons_some logged]
  rfl

/-! ## Members of a class -/

namespace JavaClass

open Snippet

variable {cls : JavaClass}

/-- What is logged before a method is called. -/
def startItems (cls : JavaClass) (method : JavaMethod) : List Item :=
  plain ("start [Method] " ++ cls.aliasName ++ "." ++ method.shownName ++ " is called") ++
    argumentItems method.argumentNames

/-- What is logged after a method was called. -/
def endItems (cls : JavaClass) (method : JavaMethod) : List Item :=
  plain ("end   [Method] " ++ cls.aliasName ++ "." ++ method.shownName ++ " result=") ++
    resultItems method.returnsValue

/-- What is logged of a field. -/
def fieldItems (cls : JavaClass) (field : JavaField) : List Item :=
  plain (" [Field] " ++ cls.aliasName ++ "." ++ Probe.keyOf field (cls.shadows field) ++
    ".value-> ") ++ [.substitution field.aliasName]

/-- The log lines of a method: two literals, each with the end of its statement
behind it. -/
def methodLog (cls : JavaClass) (method : JavaMethod) : List (Option (List Item × Text)) :=
  [some (cls.startItems method, Text.ofString ");"), some (cls.endItems method, Text.ofString ");")]

def fieldLog (cls : JavaClass) (field : JavaField) : List (Option (List Item × Text)) :=
  [some (cls.fieldItems field, Text.ofString ");")]

theorem substitutions_startItems (cls : JavaClass) (method : JavaMethod) :
    substitutions (cls.startItems method) = method.argumentNames := by
  rw [startItems, substitutions_append, substitutions_plain, substitutions_argumentItems]
  rfl

theorem substitutions_endItems (cls : JavaClass) (method : JavaMethod) :
    substitutions (cls.endItems method) =
      if method.returnsValue then [Text.ofString "result"] else [] := by
  rw [endItems, substitutions_append, substitutions_plain, resultItems]
  cases method.returnsValue with
  | true => rfl
  | false => exact substitutions_plain "void"

theorem substitutions_fieldItems (cls : JavaClass) (field : JavaField) :
    substitutions (cls.fieldItems field) = [field.aliasName] := by
  rw [fieldItems, substitutions_append, substitutions_plain]
  rfl

theorem readLog_hook (wellFormed : cls.WellFormed) {method : JavaMethod}
    (declared : method ∈ cls.methods) {firstLine : Text} (first : readLogLine? firstLine = none) :
    ((cls.hook method).lines firstLine).filterMap readLogLine? = cls.methodLog method :=
  (wellFormed.hook declared).readLog_lines first

theorem readLog_probe (wellFormed : cls.WellFormed) {field : JavaField}
    (declared : field ∈ cls.fields) {firstLine : Text} (first : readLogLine? firstLine = none) :
    ((cls.probe field).lines firstLine).filterMap readLogLine? = cls.fieldLog field :=
  (wellFormed.probe declared).readLog_lines first

theorem readLog_lines (wellFormed : cls.WellFormed) : cls.lines.filterMap readLogLine? =
    cls.fields.flatMap cls.fieldLog ++ cls.hooked.flatMap cls.methodLog := by
  have declaration : readLogLine? cls.toOwner.handle.declaration = none := rfl
  have probes : ∀ field ∈ cls.fields,
      ((cls.probe field).lines []).filterMap readLogLine? = cls.fieldLog field :=
    fun field declared => readLog_probe wellFormed declared rfl
  have hooks : ∀ method ∈ cls.hooked,
      ((cls.hook method).lines []).filterMap readLogLine? = cls.methodLog method :=
    fun method listed => readLog_hook wellFormed (List.mem_filter.mp listed).1 rfl
  rw [lines, List.filterMap_cons_none declaration, List.filterMap_append, List.filterMap_flatMap,
    List.filterMap_flatMap, List.flatMap_congr probes, List.flatMap_congr hooks]

/-- Every log line in a snippet is a literal up to its last backtick, has the names
of the class and the member as its value, and substitutes just the variables of
the member. -/
theorem log_lines_hold_names {document : Json} {model : Model} {cls : JavaClass}
    (loaded : Model.ofJson document = .ok model) (listed : cls ∈ model.classes) :
    (∃ text, generate (.cls (some cls.view)) = .ok text ∧
      readLog text = cls.fields.flatMap cls.fieldLog ++ cls.hooked.flatMap cls.methodLog) ∧
    (∀ method ∈ cls.methods,
      (∃ text, generate (.method (some (cls.member method))) = .ok text ∧
        readLog text = cls.methodLog method) ∧
      substitutions (cls.startItems method) = method.argumentNames ∧
      substitutions (cls.endItems method) =
        if method.returnsValue then [Text.ofString "result"] else []) ∧
    ∀ field ∈ cls.fields,
      (∃ text, generate (.field (some (cls.member field))) = .ok text ∧
        readLog text = cls.fieldLog field) ∧
      substitutions (cls.fieldItems field) = [field.aliasName] := by
  have wellFormed := Model.wellFormed_of_loaded loaded listed
  refine ⟨⟨cls.snippet, generate_cls wellFormed.typed, ?_⟩, ?_, ?_⟩
  · rw [readLog, snippet_eq, Text.splitAtEach_lines wellFormed.inline_lines (List.cons_ne_nil _ _)]
    exact readLog_lines wellFormed
  · intro method declared
    refine ⟨⟨_, generate_method wellFormed.typed declared, ?_⟩, cls.substitutions_startItems method,
      cls.substitutions_endItems method⟩
    rw [readLog, splitAtEach_hookBlock wellFormed .standalone declared]
    exact readLog_hook wellFormed declared rfl
  · intro field declared
    refine ⟨⟨_, generate_field field, ?_⟩, cls.substitutions_fieldItems field⟩
    rw [readLog, splitAtEach_probeBlock wellFormed .standalone declared]
    exact readLog_probe wellFormed declared rfl

/-- A document whose names try to leave the literals that they are put in. -/
def escapingDocument : Json :=
  .obj [("classes", .arr [.obj [("name", .str "A"), ("alias", .str "A$"),
    ("fields", .arr [.obj [("name", .str "\x60);x"), ("alias", .str "x$")]]),
    ("methods", .arr [.obj [("name", .str "f"), ("alias", .str "\\\x60$\x7bx\x7d"),
      ("args", .arr [.str "int"]), ("argNames", .arr [.str "a$"]), ("ret", .str "int")]])]])]

def escapingMethod : JavaMethod :=
  ⟨"f", "\\\x60$\x7bx\x7d", [.primitive .int], .primitive .int, ["a$"], false⟩

def escapingClass : JavaClass := ⟨"A", "A$", [⟨"\x60);x", "x$", none⟩], [escapingMethod]⟩

theorem log_lines_hold_names_escaping :
    ∃ text, generate (.method (some (escapingClass.member escapingMethod))) = .ok text ∧
      readLog text =
        [some (plain "start [Method] A$.\\\x60$\x7bx\x7d is called: a$=" ++
            [.substitution "a$"], Text.ofString ");"),
          some (plain "end   [Method] A$.\\\x60$\x7bx\x7d result=" ++
            [.substitution "result"], Text.ofString ");")] := by
  have loaded : Model.ofJson escapingDocument = .ok (.ofClasses [escapingClass]) := rfl
  have names := (log_lines_hold_names loaded List.mem_cons_self).2.1 escapingMethod
    List.mem_cons_self
  exact names.1

end JavaClass

end HookScript
