import HookScript.Proofs.Snippet.Lines
import Mathlib.Data.List.Forall2

/-!
# Aliases in snippets

The members of a class may be given other aliases.  A snippet finds them by their raw
names, so this changes nothing in it but the places where a name is shown or declared:
the log lines of a hook that is not for a constructor, and the variable that holds the
value of a field.

To say this exactly, a block is cut into a `Frame`, which has everything but the name,
and the name that is put in.  The frame of a hook has no place for the alias of its
method, and the frame of a probe none for the alias of its field.  What remains is that
frames do not depend on the aliases of other members either: whether a method is
overloaded, and whether a field is shadowed, is a matter of raw names and types.
-/

namespace HookScript

open Script

/-! ## Frames -/

namespace Probe

/-- What a block that reads a field says, without the name of the variable. -/
structure Frame where
  firstLine : Text
  /-- The expression for the value of the field. -/
  value : Text
  /-- The field as the log line shows it. -/
  shown : Text

/-- The block with a name for the variable. -/
def Frame.binding (frame : Frame) (name : Text) : Text :=
  List.intercalate [.ofChar '\n']
    [frame.firstLine, "let " ++ name ++ " = " ++ frame.value ++ ";",
      "console.log(\x60 [Field] " ++ frame.shown ++ "-> $\x7b" ++ name ++ "\x7d\x60);", []]

def frame (probe : Probe) (firstLine : Text) : Frame where
  firstLine := firstLine
  value := probe.handle.variableName ++ "." ++ StringLiteral.escape probe.key ++ ".value"
  shown := probe.handle.variableName ++ "." ++
    TemplateLiteral.escape (StringLiteral.escape probe.key) ++ ".value"

theorem text_eq_binding (probe : Probe) (firstLine : Text) :
    probe.text firstLine = (probe.frame firstLine).binding probe.variableName := by
  have read : probe.readLine = "let " ++ probe.variableName ++ " = " ++
      (probe.frame firstLine).value ++ ";" := by
    simp only [readLine, frame, List.append_assoc]
    rfl
  have log : probe.logLine = "console.log(\x60 [Field] " ++ (probe.frame firstLine).shown ++
      "-> $\x7b" ++ probe.variableName ++ "\x7d\x60);" := by
    simp only [logLine, TemplateLiteral.enclose, TemplateLiteral.substitution, frame,
      List.append_assoc, List.cons_append]
    rfl
  rw [text_eq, lines, read, log]
  rfl

end Probe

namespace Hook

/-- What a block that hooks a method says, without the name that it logs. -/
structure Frame where
  firstLine : Text
  /-- The expression for the method, with its selector. -/
  target : Text
  parameters : Text
  /-- The arguments as the first log line shows them. -/
  arguments : Text
  /-- What stands in front of the call. -/
  receiver : Text
  call : Text
  /-- The result as the second log line shows it. -/
  result : Text
  closing : List Text

/-- The block with a name to log. -/
def Frame.showing (frame : Frame) (name : Text) : Text :=
  List.intercalate [.ofChar '\n']
    ([frame.firstLine,
      frame.target ++ ".implementation = function (" ++ frame.parameters ++ ") \x7b",
      "    console.log(\x60start [Method] " ++ name ++ " is called" ++ frame.arguments ++ "\x60);",
      "    " ++ frame.receiver ++ frame.call ++ ";",
      "    console.log(\x60end   [Method] " ++ name ++ " result=" ++ frame.result ++ "\x60);"] ++
      frame.closing)

def frame (hook : Hook) (firstLine : Text) : Frame where
  firstLine := firstLine
  target := hook.target
  parameters := hook.parameterList
  arguments := hook.argumentLog
  receiver := if hook.returnsValue then "let result = " else []
  call := hook.call
  result := if hook.returnsValue then TemplateLiteral.substitution "result" else "void"
  closing :=
    if hook.returnsValue then [Text.ofString "    return result;", Text.ofString "\x7d;"]
    else [Text.ofString "\x7d;"]

theorem text_eq_showing (hook : Hook) (firstLine : Text) :
    hook.text firstLine = (hook.frame firstLine).showing hook.displayLiteral := by
  have start : LineBuffer.indentation ++ hook.startLine = "    console.log(\x60start [Method] " ++
      hook.displayLiteral ++ " is called" ++ hook.argumentLog ++ "\x60);" := by
    simp only [startLine, logLine, TemplateLiteral.enclose, List.append_assoc, List.cons_append]
    rfl
  have finish : ∀ result, LineBuffer.indentation ++ hook.endLine result =
      "    console.log(\x60end   [Method] " ++ hook.displayLiteral ++ " result=" ++ result ++
        "\x60);" := by
    intro result
    simp only [endLine, logLine, TemplateLiteral.enclose, List.append_assoc, List.cons_append]
    rfl
  rw [text_eq, lines, body, Frame.showing, frame]
  cases hook.returnsValue with
  | true =>
    simp only [if_true, List.map_cons, openingLine, start, finish, List.append_assoc]
    rfl
  | false =>
    simp only [if_false, Bool.false_eq_true, List.map_cons, openingLine, start, finish,
      List.append_assoc]
    rfl

end Hook

/-! ## Other aliases -/

/-- A field under an alias. -/
inductive JavaField.Renamed (field : JavaField) : JavaField → Prop where
  | under (name : Text) : Renamed field { field with aliasName := name }

/-- A method under an alias. -/
inductive JavaMethod.Renamed (method : JavaMethod) : JavaMethod → Prop where
  | under (name : Text) : Renamed method { method with aliasName := name }

/-- Two classes that differ only in the aliases of their members. -/
structure JavaClass.Renamed (cls other : JavaClass) : Prop where
  rawName : other.rawName = cls.rawName
  aliasName : other.aliasName = cls.aliasName
  fields : List.Forall₂ JavaField.Renamed cls.fields other.fields
  methods : List.Forall₂ JavaMethod.Renamed cls.methods other.methods

section Related

variable {α β γ : Type} {R : α → β → Prop} {first : List α} {second : List β}

theorem any_eq_of_forall₂ {p : α → Bool} {q : β → Bool} (related : List.Forall₂ R first second)
    (same : ∀ a b, R a b → p a = q b) : first.any p = second.any q := by
  induction related with
  | nil => rfl
  | cons here _ ih => rw [List.any_cons, List.any_cons, same _ _ here, ih]

theorem exists_of_forall₂ (related : List.Forall₂ R first second) {b : β} (listed : b ∈ second) :
    ∃ a ∈ first, R a b := by
  induction related with
  | nil => cases listed
  | cons here _ ih =>
    rcases List.mem_cons.mp listed with rfl | later
    · exact ⟨_, List.mem_cons_self, here⟩
    · rcases ih later with ⟨a, listed, related⟩
      exact ⟨a, List.mem_cons_of_mem _ listed, related⟩

theorem map_eq_zipWith_of_forall₂ {δ : Type} {f : α → γ → δ} {name : β → γ} {g : β → δ}
    (related : List.Forall₂ R first second) (same : ∀ a b, R a b → g b = f a (name b)) :
    second.map g = List.zipWith f first (second.map name) := by
  induction related with
  | nil => rfl
  | cons here _ ih =>
    rw [List.map_cons, List.map_cons, List.zipWith_cons_cons, same _ _ here, ih]

end Related

namespace JavaClass

/-- The name of a method as the log lines of its hook show it. -/
def displayLiteral (cls : JavaClass) (method : JavaMethod) : Text :=
  cls.aliasName ++ "." ++ TemplateLiteral.escape (StringLiteral.escape method.shownName)

/-- The frame of the block of a field. -/
def probeFrame (cls : JavaClass) (placement : Placement) (field : JavaField) : Probe.Frame :=
  (cls.probe field).frame (placement.firstLine cls.toOwner.handle)

/-- The frame of the block of a method. -/
def hookFrame (cls : JavaClass) (placement : Placement) (method : JavaMethod) : Hook.Frame :=
  (cls.hook method).frame (placement.firstLine cls.toOwner.handle)

/-- The declaration of the class, then the frames of its fields and of its methods with
names put in. -/
def snippetNaming (cls : JavaClass) (bound shown : List Text) : Text :=
  List.intercalate [.ofChar '\n'] (cls.toOwner.handle.declaration ::
    (List.zipWith (fun field => (cls.probeFrame .embedded field).binding) cls.fields bound ++
      List.zipWith (fun method => (cls.hookFrame .embedded method).showing) cls.hooked shown))

namespace Renamed

variable {cls other : JavaClass}

theorem handle (renamed : cls.Renamed other) : other.toOwner.handle = cls.toOwner.handle := by
  change Handle.mk other.rawName other.aliasName = Handle.mk cls.rawName cls.aliasName
  rw [renamed.rawName, renamed.aliasName]

theorem overloads (renamed : cls.Renamed other) {method method' : JavaMethod}
    (same : method.Renamed method') : other.overloads method' = cls.overloads method := by
  cases same with
  | under name =>
    refine (any_eq_of_forall₂ renamed.methods ?_).symm
    intro sibling sibling' same
    cases same with
    | under => rfl

theorem shadows (renamed : cls.Renamed other) {field field' : JavaField}
    (same : field.Renamed field') : other.shadows field' = cls.shadows field := by
  cases same with
  | under name =>
    refine (any_eq_of_forall₂ renamed.methods ?_).symm
    intro method method' same
    cases same with
    | under => rfl

theorem probeBlock (renamed : cls.Renamed other) (placement : Placement) {field field' : JavaField}
    (same : field.Renamed field') : other.probeBlock placement field' =
      (cls.probeFrame placement field).binding field'.aliasName := by
  have probe : other.probe field' = { cls.probe field with variableName := field'.aliasName } := by
    rw [JavaClass.probe, JavaClass.probe, Probe.ofField, renamed.shadows same]
    cases same with
    | under name =>
      rw [Probe.ofField]
      exact congrArg (Probe.mk · _ _) renamed.handle
  rw [JavaClass.probeBlock, renamed.handle, probe, Probe.text_eq_binding]
  rfl

theorem hookBlock (renamed : cls.Renamed other) (placement : Placement)
    {method method' : JavaMethod} (same : method.Renamed method') :
    other.hookBlock placement method' =
      (cls.hookFrame placement method).showing (cls.displayLiteral method') := by
  have hook : other.hook method' = { cls.hook method with display := method'.shownName } := by
    rw [JavaClass.hook, JavaClass.hook, Hook.ofMethod, renamed.overloads same]
    cases same with
    | under name =>
      rw [Hook.ofMethod]
      exact congrArg (Hook.mk · _ _ _ _ _) renamed.handle
  rw [JavaClass.hookBlock, renamed.handle, hook, Hook.text_eq_showing]
  rfl

theorem hooked (renamed : cls.Renamed other) :
    List.Forall₂ JavaMethod.Renamed cls.hooked other.hooked := by
  apply List.rel_filter _ renamed.methods
  intro method method' same
  cases same with
  | under => rfl

theorem typed (renamed : cls.Renamed other) (typed : ∀ method ∈ cls.methods, method.Typed) :
    ∀ method ∈ other.methods, method.Typed := by
  intro method' listed
  rcases exists_of_forall₂ renamed.methods listed with ⟨method, declared, same⟩
  cases same with
  | under => exact ⟨(typed method declared).arguments, (typed method declared).result⟩

theorem snippet (renamed : cls.Renamed other) : other.snippet =
    cls.snippetNaming (other.fields.map JavaField.aliasName)
      (other.hooked.map cls.displayLiteral) := by
  have probes := map_eq_zipWith_of_forall₂ (f := fun field => (cls.probeFrame .embedded field).binding)
    renamed.fields fun _ _ => renamed.probeBlock .embedded
  have hooks := map_eq_zipWith_of_forall₂ (f := fun method => (cls.hookFrame .embedded method).showing)
    renamed.hooked fun _ _ => renamed.hookBlock .embedded
  rw [JavaClass.snippet, renamed.handle, probes, hooks, snippetNaming]

end Renamed

/-- Every class differs from itself in nothing. -/
theorem renamed_self (cls : JavaClass) : cls.Renamed cls :=
  ⟨rfl, rfl, List.forall₂_same.mpr fun field _ => .under field.aliasName,
    List.forall₂_same.mpr fun method _ => .under method.aliasName⟩

theorem displayLiteral_of_isConstructor {cls : JavaClass} {method method' : JavaMethod}
    (same : method.Renamed method') (constructs : method.isConstructor = true) :
    cls.displayLiteral method' = cls.displayLiteral method := by
  cases same with
  | under name =>
    rw [displayLiteral, displayLiteral, JavaMethod.shownName, JavaMethod.shownName]
    simp only [constructs, if_true]

/-- The snippets of a class and of its members are frames with the aliases of the members
put in, and under other aliases they are the same frames with these put in.  What
constructors put in does not depend on their alias. -/
theorem snippets_share_frames {document : Json} {model : Model} {cls other : JavaClass}
    (loaded : Model.ofJson document = .ok model) (listed : cls ∈ model.classes)
    (renamed : cls.Renamed other) :
    (Snippet.generate (.cls (some cls.view)) = .ok (cls.snippetNaming
        (cls.fields.map JavaField.aliasName) (cls.hooked.map cls.displayLiteral)) ∧
      Snippet.generate (.cls (some other.view)) = .ok (cls.snippetNaming
        (other.fields.map JavaField.aliasName) (other.hooked.map cls.displayLiteral))) ∧
    (∀ field field', (field, field') ∈ cls.fields.zip other.fields →
      Snippet.generate (.field (some (cls.member field))) =
        .ok ((cls.probeFrame .standalone field).binding field.aliasName) ∧
      Snippet.generate (.field (some (other.member field'))) =
        .ok ((cls.probeFrame .standalone field).binding field'.aliasName)) ∧
    ∀ method method', (method, method') ∈ cls.methods.zip other.methods →
      Snippet.generate (.method (some (cls.member method))) =
        .ok ((cls.hookFrame .standalone method).showing (cls.displayLiteral method)) ∧
      Snippet.generate (.method (some (other.member method'))) =
        .ok ((cls.hookFrame .standalone method).showing (cls.displayLiteral method')) ∧
      (method.isConstructor = true → cls.displayLiteral method' = cls.displayLiteral method) := by
  have typed := (Model.wellFormed_of_loaded loaded listed).typed
  have itself := cls.renamed_self
  refine ⟨⟨?_, ?_⟩, ?_, ?_⟩
  · rw [generate_cls typed, itself.snippet]
  · rw [generate_cls (renamed.typed typed), renamed.snippet]
  · intro field field' paired
    have same := List.forall₂_zip renamed.fields paired
    rw [generate_field, generate_field, renamed.probeBlock .standalone same,
      itself.probeBlock .standalone (.under field.aliasName)]
    exact ⟨rfl, rfl⟩
  · intro method method' paired
    have same := List.forall₂_zip renamed.methods paired
    rcases List.of_mem_zip paired with ⟨declared, declared'⟩
    rw [generate_method typed declared, generate_method (renamed.typed typed) declared',
      renamed.hookBlock .standalone same,
      itself.hookBlock .standalone (.under method.aliasName)]
    exact ⟨rfl, rfl, displayLiteral_of_isConstructor same⟩

/-- A document with an overloaded method, a constructor, and a field that shares its raw name
with a method. -/
def namesakesDocument : Json :=
  .obj [("classes", .arr [.obj [("name", .str "a.A"), ("fields", .arr [.obj [("name", .str "x")]]),
    ("methods", .arr [.obj [("name", .str "<init>")], .obj [("name", .str "x")],
      .obj [("name", .str "x"), ("args", .arr [.str "int"])]])]])]

/-- The class of the document, with aliases for its field, its constructor and its other two
methods. -/
def namesakesClass (field constructor method overload : Text) : JavaClass :=
  ⟨"a.A", "A", [⟨"x", field, none⟩],
    [⟨"<init>", constructor, [], .void, [], true⟩, ⟨"x", method, [], .void, [], false⟩,
      ⟨"x", overload, [.primitive .int], .void, ["p0"], false⟩]⟩

/-- Aliases that are raw names of other members, or look like a part of the script. -/
theorem snippets_share_frames_namesakes :
    let cls := namesakesClass "x" "<init>" "x" "x"
    let other := namesakesClass "y" "x" "<clinit>" "\x60); x(\x60"
    (∃ text, Snippet.generate (.cls (some other.view)) = .ok text) ∧
      Snippet.generate (.field (some (other.member ⟨"x", "y", none⟩))) =
        .ok ("let A = Java.use(\"a.A\");\nlet y = A._x.value;\n" ++
          "console.log(\x60 [Field] A._x.value-> $\x7by\x7d\x60);\n" : Text) ∧
      Snippet.generate (.method (some (other.member ⟨"<init>", "x", [], .void, [], true⟩))) =
        Snippet.generate (.method (some (cls.member ⟨"<init>", "<init>", [], .void, [], true⟩))) := by
  intro cls other
  have loaded : Model.ofJson namesakesDocument = .ok (.ofClasses [cls]) := rfl
  have listed : cls ∈ (Model.ofClasses [cls]).classes := List.mem_cons_self
  have renamed : cls.Renamed other :=
    ⟨rfl, rfl, .cons (.under _) .nil, .cons (.under _) (.cons (.under _) (.cons (.under _) .nil))⟩
  rcases snippets_share_frames loaded listed renamed with ⟨⟨_, whole⟩, fields, methods⟩
  rcases fields _ _ List.mem_cons_self with ⟨_, field⟩
  rcases methods _ _ List.mem_cons_self with ⟨constructor, constructor', same⟩
  refine ⟨⟨_, whole⟩, ?_, ?_⟩
  · rw [field]
    rfl
  · rw [constructor', constructor, same rfl]

end JavaClass

end HookScript
