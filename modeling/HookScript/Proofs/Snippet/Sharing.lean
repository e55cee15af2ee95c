import HookScript.Proofs.Snippet.Lines

/-!
# Snippets of classes and of their members

A class and its members are written by the same steps, in two ways.  On its own a
member starts with the declaration of its class and with a new context.  In the
snippet of its class it starts with an empty line, and it is written with the
context that all members before it have used.

Neither makes a difference to what follows the first line.  A block puts its first
line in front of the rest and does not look at it again.  And a context that has
served members of a class has the methods of the class as they are, which is all
that a member asks for.  So the snippet of a class is the declaration and then, member
by member, what the snippets of the members say behind the declaration.
-/

namespace HookScript

open Script Composing

/-! ## First lines -/

theorem Hook.text_eq_append (hook : Hook) (firstLine : Text) :
    hook.text firstLine = firstLine ++ hook.text [] := by
  rw [text_eq, text_eq, lines, lines, Text.intercalate_cons, Text.intercalate_cons, List.nil_append]

theorem Probe.text_eq_append (probe : Probe) (firstLine : Text) :
    probe.text firstLine = firstLine ++ probe.text [] := by
  rw [text_eq, text_eq, lines, lines, Text.intercalate_cons, Text.intercalate_cons, List.nil_append]

/-! ## Shared contexts -/

/-- Steps that cannot fail give the same one after the other as each of them gives with
a context of its own. -/
theorem Composing.exists_runFresh_mapM {α : Type} {owner : Owner} {steps : List (Composing α)}
    (each : ∀ step ∈ steps, ∃ value, Yields owner step value) :
    ∃ values, (steps.mapM id).runFresh = .ok values ∧ steps.mapM runFresh = .ok values := by
  -- what the steps give together has to be known of every context, not only of a new one
  have both : ∃ values, Yields owner (steps.mapM id) values ∧ steps.mapM runFresh = .ok values := by
    induction steps with
    | nil => exact ⟨[], Yields.pure [], rfl⟩
    | cons step steps ih =>
      rcases List.forall_mem_cons.mp each with ⟨⟨value, here⟩, others⟩
      rcases ih others with ⟨values, shared, alone⟩
      refine ⟨value :: values, ?_, ?_⟩
      · rw [List.mapM_cons]
        exact here.bind (shared.bind (Yields.pure _))
      · rw [List.mapM_cons, here.runFresh, alone]
        rfl
  rcases both with ⟨values, shared, alone⟩
  exact ⟨values, shared.runFresh, alone⟩

namespace JavaClass

variable {cls : JavaClass}

/-- The steps that write the blocks of the members of a class. -/
inductive MemberBlock (cls : JavaClass) : Composing Text → Prop where
  | field (placement : Placement) {field : JavaField} (declared : field ∈ cls.fields) :
    MemberBlock cls (Snippet.field placement (cls.member field))
  | method (placement : Placement) {method : JavaMethod} (declared : method ∈ cls.methods) :
    MemberBlock cls (Snippet.method placement (cls.member method))

theorem MemberBlock.exists_yields {block : Composing Text} (member : cls.MemberBlock block)
    (typed : ∀ method ∈ cls.methods, method.Typed) : ∃ text, Yields cls.toOwner block text := by
  cases member with
  | field placement declared => exact ⟨_, yields_probeBlock placement _⟩
  | method placement declared => exact ⟨_, yields_hookBlock typed placement declared⟩

/-! ## Blocks after each other -/

theorem probeBlock_standalone (cls : JavaClass) (field : JavaField) :
    cls.probeBlock .standalone field =
      cls.toOwner.handle.declaration ++ cls.probeBlock .embedded field :=
  (cls.probe field).text_eq_append _

theorem hookBlock_standalone (cls : JavaClass) (method : JavaMethod) :
    cls.hookBlock .standalone method =
      cls.toOwner.handle.declaration ++ cls.hookBlock .embedded method :=
  (cls.hook method).text_eq_append _

theorem snippet_eq_append (cls : JavaClass) : cls.snippet = cls.toOwner.handle.declaration ++
    (cls.fields.flatMap (fun field => .ofChar '\n' :: cls.probeBlock .embedded field) ++
      cls.hooked.flatMap fun method => .ofChar '\n' :: cls.hookBlock .embedded method) := by
  rw [snippet, Text.intercalate_cons, List.flatMap_append, List.flatMap_map, List.flatMap_map]
  rfl

end JavaClass

/-! ## Declared once -/

namespace Handle

variable {handle : Handle}

theorem cons_ne_declaration {c : CodePoint} (other : c ≠ 'l') (rest : Text) :
    c :: rest ≠ handle.declaration := by
  intro same
  exact other (List.cons.inj same).1

/-- A declaration ends in a quote, a parenthesis and a semicolon. -/
theorem append_ne_declaration {ending : Text} (length : ending.length = 3)
    (other : ending ≠ "\x22);") (before : Text) : before ++ ending ≠ handle.declaration := by
  intro same
  exact other (List.append_inj_right' same length)

end Handle

theorem Probe.declaration_not_mem_lines (probe : Probe) (handle : Handle) :
    handle.declaration ∉ probe.lines [] := by
  have read : probe.readLine ≠ handle.declaration := by
    have ends : probe.readLine = ("let " ++ probe.variableName ++ " = " ++
        probe.handle.variableName ++ "." ++ StringLiteral.escape probe.key ++ ".val") ++ "ue;" :=
      (List.append_assoc _ (Text.ofString ".val") (Text.ofString "ue;")).symm
    rw [ends]
    exact Handle.append_ne_declaration rfl (by decide) _
  have logged : probe.logLine ≠ handle.declaration := Handle.cons_ne_declaration (by decide) _
  intro member
  simp only [lines, List.mem_cons, List.not_mem_nil, or_false] at member
  rcases member with same | same | same | same
  · cases same
  · exact read same.symm
  · exact logged same.symm
  · cases same

theorem Hook.declaration_not_mem_lines (hook : Hook) (handle : Handle) :
    handle.declaration ∉ hook.lines [] := by
  have opening : hook.openingLine ≠ handle.declaration :=
    Handle.append_ne_declaration rfl (by decide) _
  intro member
  rcases List.mem_cons.mp member with same | member
  · cases same
  rcases List.mem_cons.mp member with same | member
  · exact opening same.symm
  rcases List.mem_append.mp member with inBody | last
  · rcases List.mem_map.mp inBody with ⟨line, _, same⟩
    exact Handle.cons_ne_declaration (by decide) _ same
  · exact Handle.cons_ne_declaration (by decide) _ (List.mem_singleton.mp last).symm

namespace JavaClass

variable {cls : JavaClass}

theorem count_declaration_lines (cls : JavaClass) :
    cls.lines.count cls.toOwner.handle.declaration = 1 := by
  have once : cls.toOwner.handle.declaration ∉
      cls.fields.flatMap (fun field => (cls.probe field).lines []) ++
        cls.hooked.flatMap fun method => (cls.hook method).lines [] := by
    intro member
    rcases List.mem_append.mp member with inProbes | inHooks
    · rcases List.mem_flatMap.mp inProbes with ⟨field, _, inProbe⟩
      exact (cls.probe field).declaration_not_mem_lines _ inProbe
    · rcases List.mem_flatMap.mp inHooks with ⟨method, _, inHook⟩
      exact (cls.hook method).declaration_not_mem_lines _ inHook
  rw [lines, List.count_cons_self, List.count_eq_zero.mpr once]

/-! ## Snippets -/

/-- The snippet of a member is the declaration of its class and a rest.  The snippet of
the class is the declaration once and then, after a newline each, the rests of all fields
and of all methods but the initialiser, in their order.  Blocks of members that share
a context are the same as with contexts of their own, in whatever order they are
written. -/
theorem class_snippet_joins_members {document : Json} {model : Model}
    (loaded : Model.ofJson document = .ok model) (listed : cls ∈ model.classes) :
    (∃ (fieldRest : JavaField → Text) (methodRest : JavaMethod → Text) (text : Text),
      (∀ field ∈ cls.fields, Snippet.generate (.field (some (cls.member field))) =
        .ok (cls.toOwner.handle.declaration ++ fieldRest field)) ∧
      (∀ method ∈ cls.methods, Snippet.generate (.method (some (cls.member method))) =
        .ok (cls.toOwner.handle.declaration ++ methodRest method)) ∧
      Snippet.generate (.cls (some cls.view)) = .ok text ∧
      text = cls.toOwner.handle.declaration ++
        (cls.fields.flatMap (fun field => .ofChar '\n' :: fieldRest field) ++
          (cls.methods.filter fun method =>
            method.rawName ≠ JavaMethod.staticInitializerName).flatMap
              fun method => .ofChar '\n' :: methodRest method) ∧
      (text.splitAtEach '\n').count cls.toOwner.handle.declaration = 1) ∧
    ∀ blocks : List (Composing Text), (∀ block ∈ blocks, cls.MemberBlock block) →
      ∃ texts, (blocks.mapM id).runFresh = .ok texts ∧ blocks.mapM runFresh = .ok texts := by
  have wellFormed := Model.wellFormed_of_loaded loaded listed
  constructor
  · refine ⟨cls.probeBlock .embedded, cls.hookBlock .embedded, cls.snippet, ?_, ?_,
      generate_cls wellFormed.typed, ?_, ?_⟩
    · intro field _
      rw [generate_field, probeBlock_standalone]
    · intro method declared
      rw [generate_method wellFormed.typed declared, hookBlock_standalone]
    · have hooked : cls.hooked =
          cls.methods.filter fun method => method.rawName ≠ JavaMethod.staticInitializerName := by
        simp only [hooked, JavaMethod.isStaticInitializer, ne_eq, decide_not]
      rw [snippet_eq_append, hooked]
    · rw [snippet_eq, Text.splitAtEach_lines wellFormed.inline_lines (List.cons_ne_nil _ _)]
      exact cls.count_declaration_lines
  · intro blocks members
    exact exists_runFresh_mapM fun block member =>
      (members block member).exists_yields wellFormed.typed

/-- A class with an initialiser, which is left out, and an overloaded method. -/
theorem class_snippet_joins_members_wild :
    let declaration := wildClass.toOwner.handle.declaration
    let field := wildClass.member (⟨[.ofChar '\n', .ofNat 0xD800], "x", none⟩ : JavaField)
    let method := wildClass.member (⟨"f\n\x60", "f\n\x60", [], .void, [], false⟩ : JavaMethod)
    (∃ fieldRest overloadRest methodRest text,
      Snippet.generate (.field (some field)) = .ok (declaration ++ fieldRest) ∧
      Snippet.generate (.method (some method)) = .ok (declaration ++ methodRest) ∧
      Snippet.generate (.cls (some wildClass.view)) = .ok text ∧
      text = declaration ++ (.ofChar '\n' :: fieldRest) ++ (.ofChar '\n' :: overloadRest) ++
        (.ofChar '\n' :: methodRest) ∧
      (text.splitAtEach '\n').count declaration = 1) ∧
    ∃ texts, ([Snippet.method .standalone method, Snippet.field .embedded field].mapM id).runFresh =
      .ok texts := by
  intro declaration field method
  have loaded : Model.ofJson wildDocument = .ok (.ofClasses [wildClass]) := rfl
  have inFields : field.item ∈ wildClass.fields := List.mem_cons_self
  have inMethods : method.item ∈ wildClass.methods := by decide
  let overload : JavaMethod :=
    ⟨"f\n\x60", "f\n\x60", [⟨.primitive .int, 1⟩], .primitive .int, ["p0"], false⟩
  have listed : wildClass ∈ (Model.ofClasses [wildClass]).classes := List.mem_cons_self
  rcases class_snippet_joins_members loaded listed with
    ⟨⟨fieldRest, methodRest, text, probes, hooks, made, joined, once⟩, shared⟩
  refine ⟨⟨fieldRest field.item, methodRest overload, methodRest method.item, text,
    probes field.item inFields, hooks method.item inMethods, made, ?_, once⟩, ?_⟩
  · have fields : wildClass.fields = [field.item] := rfl
    have hooked : (wildClass.methods.filter fun method =>
        method.rawName ≠ JavaMethod.staticInitializerName) = [overload, method.item] := rfl
    rw [joined, fields, hooked]
    simp only [List.flatMap_cons, List.flatMap_nil, List.append_nil, List.append_assoc, declaration]
  · have members : ∀ block ∈ [Snippet.method .standalone method, Snippet.field .embedded field],
        wildClass.MemberBlock block :=
      List.forall_mem_cons.mpr ⟨.method .standalone inMethods,
        List.forall_mem_singleton.mpr (.field .embedded inFields)⟩
    rcases shared _ members with ⟨texts, together, _⟩
    exact ⟨texts, together⟩

end JavaClass

end HookScript
