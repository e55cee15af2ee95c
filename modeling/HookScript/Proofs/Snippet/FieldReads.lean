import HookScript.Proofs.Script.MemberName
import HookScript.Proofs.Snippet.Lines

/-!
# What the reads of fields read

A probe reads a field by name, with the key of the field written behind a dot.  The
key is escaped as if it stood between quotes, which is where the key of a method
stands.  Behind a dot this makes a name of keys from other scripts, but not of keys
that hold a mark of ASCII: such a mark ends the name, and what follows it is run.

Raw names are not checked when a model is loaded.  So a probe reads its field if
the key of the field can be read by name, as it always can if the raw name can be
declared, and otherwise it is not the statement that it was meant to be.
-/

namespace HookScript

open Script

theorem Probe.WellFormed.ofLine?_readLine {probe : Probe} (wellFormed : probe.WellFormed)
    {read : FieldRead} : FieldRead.ofLine? probe.readLine = some read ↔
      Nameable probe.key ∧
        read = ⟨probe.variableName, probe.handle.variableName, probe.key.units16⟩ :=
  FieldRead.ofLine?_escape_eq_some wellFormed.variableName wellFormed.className

namespace Probe

/-- An underscore in front may stand in any name, and is no digit. -/
theorem nameable_keyOf_iff {field : JavaField} {shared : Bool} : Nameable (keyOf field shared) ↔
    (∀ c ∈ field.rawName, MemberName.Allowed c) ∧
      (shared = false → ∃ c ∈ field.rawName.head?, ¬(0x30 ≤ c.val ∧ c.val ≤ 0x39)) := by
  cases shared with
  | false => exact ⟨fun name => ⟨name.codePoints, fun _ => name.start⟩, fun parts => ⟨parts.1, parts.2 rfl⟩⟩
  | true =>
    have underscore : MemberName.Allowed '_' := by decide
    constructor
    · intro name
      exact ⟨(List.forall_mem_cons.mp name.codePoints).2, nofun⟩
    · intro parts
      exact ⟨List.forall_mem_cons.mpr ⟨underscore, parts.1⟩, '_', rfl, by decide⟩

end Probe

namespace JavaClass

variable {cls : JavaClass}

theorem mem_splitAtEach_snippet (wellFormed : cls.WellFormed) {field : JavaField}
    (declared : field ∈ cls.fields) :
    (cls.probe field).readLine ∈ cls.snippet.splitAtEach '\n' := by
  have second : (cls.probe field).readLine ∈ (cls.probe field).lines [] :=
    List.mem_cons_of_mem _ List.mem_cons_self
  rw [snippet_eq, Text.splitAtEach_lines wellFormed.inline_lines (List.cons_ne_nil _ _)]
  exact List.mem_cons_of_mem _ (List.mem_append_left _ (List.mem_flatMap.mpr
    ⟨field, declared, second⟩))

/-- Every field is read in the second line of its snippet and in a line of the snippet
of its class.  What stands there behind the dot is a name exactly if the key of the
field is made of code points that are allowed in one and does not start with a digit,
and exactly then the line reads the field with that key and does nothing else. -/
theorem field_read_iff_nameable {document : Json} {model : Model}
    (loaded : Model.ofJson document = .ok model) (listed : cls ∈ model.classes)
    {field : JavaField} (declared : field ∈ cls.fields) :
    (∃ text, Snippet.generate (.field (some (cls.member field))) = .ok text ∧
      (text.splitAtEach '\n')[1]? = some (cls.probe field).readLine) ∧
    (∃ text, Snippet.generate (.cls (some cls.view)) = .ok text ∧
      (cls.probe field).readLine ∈ text.splitAtEach '\n') ∧
    ((∀ units, MemberName.read? (StringLiteral.escape (cls.probe field).key) = some units ↔
        Nameable (cls.probe field).key ∧ units = (cls.probe field).key.units16) ∧
      ∀ read, FieldRead.ofLine? (cls.probe field).readLine = some read ↔
        Nameable (cls.probe field).key ∧
          read = ⟨field.aliasName, cls.aliasName, (cls.probe field).key.units16⟩) ∧
    (Nameable (cls.probe field).key ↔ (∀ c ∈ field.rawName, MemberName.Allowed c) ∧
      (cls.shadows field = false →
        ∃ c ∈ field.rawName.head?, ¬(0x30 ≤ c.val ∧ c.val ≤ 0x39))) ∧
    (isIdentifier field.rawName = true → Nameable (cls.probe field).key) := by
  have wellFormed := Model.wellFormed_of_loaded loaded listed
  have key : Nameable (cls.probe field).key ↔ _ := Probe.nameable_keyOf_iff
  refine ⟨⟨_, generate_field field, ?_⟩, ⟨_, generate_cls wellFormed.typed, ?_⟩,
    ⟨fun _ => MemberName.read?_escape_eq_some, fun _ => ?_⟩, key, fun identifier => ?_⟩
  · rw [splitAtEach_probeBlock wellFormed .standalone declared]
    rfl
  · exact mem_splitAtEach_snippet wellFormed declared
  · exact (wellFormed.probe declared).ofLine?_readLine
  · have name := MemberName.nameable_of_isIdentifier identifier
    exact key.mpr ⟨name.codePoints, fun _ => name.start⟩

/-- A document with a field that has the name of a method. -/
def namesakeDocument : Json :=
  .obj [("classes", .arr [.obj [("name", .str "A"), ("fields", .arr [.obj [("name", .str "a")]]),
    ("methods", .arr [.obj [("name", .str "a")]])]])]

def namesakeClass : JavaClass :=
  ⟨"A", "A", [⟨"a", "a", none⟩], [⟨"a", "a", [], .void, [], false⟩]⟩

theorem field_read_iff_nameable_namesake :
    ∃ text line, Snippet.generate (.field (some (namesakeClass.member ⟨"a", "a", none⟩))) = .ok text ∧
      (text.splitAtEach '\n')[1]? = some line ∧
      FieldRead.ofLine? line = some ⟨"a", "A", Text.units16 "_a"⟩ := by
  have loaded : Model.ofJson namesakeDocument = .ok (.ofClasses [namesakeClass]) := rfl
  rcases field_read_iff_nameable loaded List.mem_cons_self
      (List.mem_cons_self : ⟨"a", "a", none⟩ ∈ namesakeClass.fields) with
    ⟨⟨text, made, second⟩, _, ⟨_, reads⟩, _, nameable⟩
  have key : (namesakeClass.probe ⟨"a", "a", none⟩).key = "_a" := by decide
  rw [key] at reads nameable
  exact ⟨text, _, made, second, (reads _).mpr ⟨nameable (by decide), rfl⟩⟩

/-- A document with a field whose raw name holds a statement. -/
def injectingDocument : Json :=
  .obj [("classes", .arr [.obj [("name", .str "A"),
    ("fields", .arr [.obj [("name", .str "x;evil();y"), ("alias", .str "x")]])]])]

/-- The raw name of a field can end the statement that reads it and add others. -/
theorem exists_injected_statement :
    ∃ model cls field text, Model.ofJson injectingDocument = .ok model ∧ cls ∈ model.classes ∧
      field ∈ cls.fields ∧ Snippet.generate (.field (some (cls.member field))) = .ok text ∧
      (text.splitAtEach '\n')[1]? = some (Text.ofString "let x = A.x;evil();y.value;") ∧
      MemberName.read? (StringLiteral.escape (Probe.keyOf field (cls.shadows field))) = none := by
  let field : JavaField := ⟨"x;evil();y", "x", none⟩
  let cls : JavaClass := ⟨"A", "A", [field], []⟩
  have loaded : Model.ofJson injectingDocument = .ok (.ofClasses [cls]) := rfl
  have wellFormed := Model.wellFormed_of_loaded loaded List.mem_cons_self
  refine ⟨.ofClasses [cls], cls, field, _, loaded, List.mem_cons_self, List.mem_cons_self,
    generate_field field, ?_, ?_⟩
  · rw [splitAtEach_probeBlock wellFormed .standalone List.mem_cons_self]
    rfl
  · have semicolon : .ofChar ';' ∈ Probe.keyOf field (cls.shadows field) := by decide
    apply Option.eq_none_iff_forall_ne_some.mpr
    intro units reads
    have nameable := (MemberName.read?_escape_eq_some.mp reads).1
    exact absurd (nameable.codePoints _ semicolon) (by decide)

end JavaClass

end HookScript
