import HookScript.Proofs.Program.Acceptance
import HookScript.Snippet.Generation

/-!
# Snippets of well-formed classes

A member of a well-formed class has an owner, and every method of the owner has an
identity, so nothing is ever missing for the snippet of a member.  What the snippet
says is then a matter of the class and the member alone.  The context does not
count: whether it is new or has served other members of the class, it has the
methods of the class as they are.
-/

namespace HookScript

/-! ## What snippets of a class say -/

namespace JavaMethod

/-- The name under which the running program knows a method. -/
def lookupKey (method : JavaMethod) : Text :=
  if method.isConstructor then Hook.constructorKey else method.rawName

/-- The name of a method in log lines. -/
def shownName (method : JavaMethod) : Text :=
  if method.isConstructor then Hook.constructorKey else method.aliasName

end JavaMethod

namespace JavaClass

/-- A field or method of a class that is on its own. -/
def member {α : Type} (cls : JavaClass) (item : α) : Member α := ⟨item, some cls.toOwner⟩

/-- A class among others, as an owner. -/
def ownerAs (cls : JavaClass) (id : ClassId) : Owner := { cls.toOwner with id := id }

/-- A field or method of a class that is among others. -/
def memberAs {α : Type} (cls : JavaClass) (id : ClassId) (item : α) : Member α :=
  ⟨item, some (cls.ownerAs id)⟩

/-- Whether another method of the class has the raw name of a method. -/
def overloads (cls : JavaClass) (method : JavaMethod) : Bool :=
  cls.methods.any fun other => other.rawName = method.rawName ∧ other.identity ≠ method.identity

/-- Whether a method of the class has the raw name of a field. -/
def shadows (cls : JavaClass) (field : JavaField) : Bool :=
  cls.methods.any fun method => method.rawName = field.rawName

theorem shadows_iff {cls : JavaClass} {field : JavaField} :
    cls.shadows field = true ↔ ∃ method ∈ cls.methods, method.rawName = field.rawName := by
  simp only [shadows, List.any_eq_true, decide_eq_true_eq]

def hook (cls : JavaClass) (method : JavaMethod) : Hook :=
  .ofMethod cls.toOwner method (cls.overloads method)

def probe (cls : JavaClass) (field : JavaField) : Probe :=
  .ofField cls.toOwner field (Probe.keyOf field (cls.shadows field))

/-- The methods that the snippet of the class hooks. -/
def hooked (cls : JavaClass) : List JavaMethod :=
  cls.methods.filter fun method => !method.isStaticInitializer

def hookBlock (cls : JavaClass) (placement : Placement) (method : JavaMethod) : Text :=
  (cls.hook method).text (placement.firstLine cls.toOwner.handle)

def probeBlock (cls : JavaClass) (placement : Placement) (field : JavaField) : Text :=
  (cls.probe field).text (placement.firstLine cls.toOwner.handle)

/-- The declaration of the class, then every field and every method but the
initialiser, each as if it were the only one. -/
def snippet (cls : JavaClass) : Text :=
  List.intercalate [.ofChar '\n'] (cls.toOwner.handle.declaration ::
    (cls.fields.map (cls.probeBlock .embedded) ++ cls.hooked.map (cls.hookBlock .embedded)))

end JavaClass

/-! ## Steps that cannot fail -/

/-- A context that would give the methods of a class as they are. -/
def Context.Knows (context : Context) (owner : Owner) : Prop :=
  context.indexOf owner = .ofMethods owner.methods

theorem Context.knows_empty (owner : Owner) : empty.Knows owner := indexOf_empty owner

theorem Context.Knows.consult {context : Context} {owner : Owner} (knows : context.Knows owner) :
    (context.consult owner).Knows owner :=
  (context.indexOf_consult_of_id_eq rfl).trans knows

namespace Composing

variable {α β : Type} {owner : Owner}

/-- A step that gives a value in every context that knows a class, and leaves such a
context. -/
def Yields (owner : Owner) (step : Composing α) (value : α) : Prop :=
  ∀ context : Context, context.Knows owner →
    ∃ after, step.runWith context = (.ok value, after) ∧ after.Knows owner

theorem Yields.runFresh {step : Composing α} {value : α} (yields : Yields owner step value) :
    step.runFresh = .ok value := by
  rcases yields .empty (Context.knows_empty owner) with ⟨after, runs, _⟩
  rw [Composing.runFresh, runs]

theorem Yields.pure (value : α) : Yields owner (pure value) value :=
  fun context knows => ⟨context, rfl, knows⟩

theorem runWith_bind (context : Context) (step : Composing α) (next : α → Composing β) :
    (step >>= next).runWith context =
      match step.runWith context with
      | (.ok value, between) => (next value).runWith between
      | (.error missing, between) => (.error missing, between) := by
  change (ExceptT.bind step next).run context = _
  rcases ran : step.runWith context with ⟨result, between⟩
  rw [ExceptT.bind, ExceptT.run_mk]
  change StateT.bind step.run (ExceptT.bindCont next) context = _
  have first : step.run context = (result, between) := ran
  rw [StateT.bind]
  simp only [first]
  cases result <;> rfl

theorem Yields.bind {step : Composing α} {next : α → Composing β} {value : α} {result : β}
    (first : Yields owner step value) (second : Yields owner (next value) result) :
    Yields owner (step >>= next) result := by
  intro context knows
  rcases first context knows with ⟨between, runs, known⟩
  rcases second between known with ⟨after, ends, kept⟩
  refine ⟨after, ?_, kept⟩
  rw [runWith_bind, runs]
  exact ends

theorem Yields.mapM {steps : α → Composing β} {values : α → β} {items : List α}
    (each : ∀ item ∈ items, Yields owner (steps item) (values item)) :
    Yields owner (items.mapM steps) (items.map values) := by
  induction items with
  | nil => exact Yields.pure []
  | cons item items ih =>
    rcases List.forall_mem_cons.mp each with ⟨here, later⟩
    rw [List.mapM_cons]
    exact here.bind ((ih later).bind (Yields.pure _))

theorem yields_ownerOf (member : Member α) (owned : member.owner? = some owner) :
    Yields owner (ownerOf member) owner := by
  rw [ownerOf, owned]
  exact Yields.pure owner

/-- Without an owner nothing is done. -/
theorem runWith_ownerOf_bind {member : Member α} {next : Owner → Composing β}
    (unowned : member.owner? = none) (context : Context) :
    (ownerOf member >>= next).runWith context = (.error .methods, context) := by
  rw [ownerOf, unowned]
  rfl

/-! ## Steps that look up methods -/

/-- A step that asks its context about one class, and goes by the index of that class
alone. -/
def LooksUp (owner : Owner) (step : Composing α) (reply : MethodIndex → Except Missing α) : Prop :=
  ∀ context, step.runWith context = (reply (context.indexOf owner), context.consult owner)

theorem looksUp_methodsNamed (name : Text) :
    LooksUp owner (methodsNamed owner name) fun index => .ok (index.named name) :=
  fun _ => rfl

theorem LooksUp.bind {step : Composing α} {reply : MethodIndex → Except Missing α}
    (looksUp : LooksUp owner step reply) (finish : α → Except Missing β) :
    LooksUp owner (step >>= fun value => liftM (finish value)) fun index => reply index >>= finish := by
  intro context
  rw [runWith_bind, looksUp context]
  change _ = (reply (context.indexOf owner) >>= finish, context.consult owner)
  cases reply (context.indexOf owner) with
  | error missing => rfl
  | ok value =>
    change (liftM (finish value) : Composing β).runWith _ = (finish value, _)
    cases finish value with
    | error missing => rfl
    | ok result => rfl

theorem LooksUp.of_owner {member : Member α} {next : Owner → Composing β}
    {reply : MethodIndex → Except Missing β} (owned : member.owner? = some owner)
    (looksUp : LooksUp owner (next owner) reply) : LooksUp owner (ownerOf member >>= next) reply := by
  rw [ownerOf, owned]
  exact looksUp

theorem looksUp_overloadedIn {method : Member JavaMethod} (owned : method.owner? = some owner) :
    LooksUp owner (Hook.overloadedIn method)
      fun index => Hook.isOverloaded method.item (index.named method.item.rawName) :=
  .of_owner owned ((looksUp_methodsNamed method.item.rawName).bind (Hook.isOverloaded method.item))

theorem looksUp_keyIn {field : Member JavaField} (owned : field.owner? = some owner) :
    LooksUp owner (Probe.keyIn field)
      fun index => .ok (Probe.keyOf field.item (!(index.named field.item.rawName).isEmpty)) :=
  .of_owner owned ((looksUp_methodsNamed field.item.rawName).bind fun namesakes =>
    .ok (Probe.keyOf field.item (!namesakes.isEmpty)))

/-- Where the class is known, the reply is to the methods of the class. -/
theorem LooksUp.yields {step : Composing α} {reply : MethodIndex → Except Missing α} {value : α}
    (looksUp : LooksUp owner step reply) (found : reply (.ofMethods owner.methods) = .ok value) :
    Yields owner step value := by
  intro context knows
  refine ⟨context.consult owner, ?_, knows.consult⟩
  rw [looksUp context, knows, found]

end Composing

/-! ## Hooks and probes -/

theorem JavaMethod.Typed.hasIdentity {method : JavaMethod} (typed : method.Typed) :
    method.hasIdentity = true := by
  rw [JavaMethod.hasIdentity, Bool.and_eq_true, List.all_eq_true]
  exact ⟨fun type listed => (typed.arguments type listed).hasSignature, typed.result.hasSignature⟩

theorem Hook.isOverloaded_of_hasIdentity {method : JavaMethod} {others : List JavaMethod}
    (identified : method.hasIdentity = true)
    (allIdentified : ∀ other ∈ others, other.hasIdentity = true) :
    isOverloaded method others = .ok (others.any fun other => other.identity ≠ method.identity) := by
  induction others with
  | nil => rfl
  | cons other others ih =>
    rcases List.forall_mem_cons.mp allIdentified with ⟨here, later⟩
    have comparable : (!(other.hasIdentity && method.hasIdentity)) = false := by
      rw [here, identified]
      rfl
    rw [isOverloaded, comparable, if_neg Bool.false_ne_true, List.any_cons]
    by_cases same : other.identity = method.identity
    · rw [if_pos same, ih later, decide_eq_false (not_not_intro same), Bool.false_or]
    · rw [if_neg same, decide_eq_true same, Bool.true_or]

namespace JavaClass

open Composing

variable {cls : JavaClass}

theorem yields_overloadedIn (typed : ∀ method ∈ cls.methods, method.Typed) (id : ClassId)
    {method : JavaMethod} (declared : method ∈ cls.methods) :
    Yields (cls.ownerAs id) (Hook.overloadedIn (cls.memberAs id method)) (cls.overloads method) := by
  refine (looksUp_overloadedIn rfl).yields ?_
  change Hook.isOverloaded method ((MethodIndex.ofMethods cls.methods).named method.rawName) = _
  rw [MethodIndex.named_ofMethods,
    Hook.isOverloaded_of_hasIdentity (typed method declared).hasIdentity fun other listed =>
      (typed other (List.mem_filter.mp listed).1).hasIdentity, List.any_filter]
  simp only [overloads, Bool.decide_and]

theorem yields_hook (typed : ∀ method ∈ cls.methods, method.Typed) (id : ClassId)
    {method : JavaMethod} (declared : method ∈ cls.methods) :
    Yields (cls.ownerAs id) (Hook.compose (cls.memberAs id method)) (cls.hook method) :=
  (yields_ownerOf _ rfl).bind ((yields_overloadedIn typed id declared).bind (Yields.pure _))

theorem yields_key (field : JavaField) :
    Yields cls.toOwner (Probe.keyIn (cls.member field)) (cls.probe field).key := by
  have shared : (!(cls.methods.filter fun method => method.rawName = field.rawName).isEmpty) =
      cls.shadows field := by
    rw [Bool.eq_iff_iff, shadows_iff, Bool.not_eq_true', List.isEmpty_eq_false_iff, ne_eq,
      List.filter_eq_nil_iff]
    push Not
    simp only [decide_eq_true_eq]
  refine (looksUp_keyIn rfl).yields ?_
  change Except.ok (Probe.keyOf field
    (!((MethodIndex.ofMethods cls.methods).named field.rawName).isEmpty)) = _
  rw [MethodIndex.named_ofMethods, shared]
  rfl

theorem yields_probe (field : JavaField) :
    Yields cls.toOwner (Probe.compose (cls.member field)) (cls.probe field) :=
  (yields_ownerOf _ rfl).bind ((yields_key field).bind (Yields.pure _))

/-- The id of a class does not show in the blocks of its methods. -/
theorem yields_hookBlockAs (typed : ∀ method ∈ cls.methods, method.Typed) (id : ClassId)
    (placement : Placement) {method : JavaMethod} (declared : method ∈ cls.methods) :
    Yields (cls.ownerAs id) (Snippet.method placement (cls.memberAs id method))
      (cls.hookBlock placement method) :=
  (yields_hook typed id declared).bind (Yields.pure _)

theorem yields_hookBlock (typed : ∀ method ∈ cls.methods, method.Typed) (placement : Placement)
    {method : JavaMethod} (declared : method ∈ cls.methods) :
    Yields cls.toOwner (Snippet.method placement (cls.member method))
      (cls.hookBlock placement method) :=
  yields_hookBlockAs typed ⟨0⟩ placement declared

theorem yields_probeBlock (placement : Placement) (field : JavaField) :
    Yields cls.toOwner (Snippet.field placement (cls.member field))
      (cls.probeBlock placement field) :=
  (yields_probe field).bind (Yields.pure _)

theorem yields_snippet (typed : ∀ method ∈ cls.methods, method.Typed) :
    Yields cls.toOwner (Snippet.cls cls.view) cls.snippet := by
  have probes : Yields cls.toOwner (cls.view.fields.mapM (Snippet.field .embedded))
      (cls.fields.map (cls.probeBlock .embedded)) := by
    change Yields _ ((cls.fields.map cls.member).mapM _) _
    rw [List.mapM_map]
    exact Yields.mapM fun field _ => yields_probeBlock .embedded field
  have hooks : Yields cls.toOwner
      ((cls.view.methods.filter fun member => !member.item.isStaticInitializer).mapM
        (Snippet.method .embedded)) (cls.hooked.map (cls.hookBlock .embedded)) := by
    change Yields _ (((cls.methods.map cls.member).filter _).mapM _) _
    rw [List.filter_map, List.mapM_map]
    exact Yields.mapM fun method listed =>
      yields_hookBlock typed .embedded (List.mem_filter.mp listed).1
  have declaration : cls.view.toOwner.handle.declaration = cls.toOwner.handle.declaration := by
    rw [toOwner_view]
  rw [snippet, ← declaration]
  exact probes.bind (hooks.bind (Yields.pure _))

/-! ## Generating -/

theorem generate_method (typed : ∀ method ∈ cls.methods, method.Typed) {method : JavaMethod}
    (declared : method ∈ cls.methods) :
    Snippet.generate (.method (some (cls.member method))) =
      .ok (cls.hookBlock .standalone method) := by
  change Snippet.complete .method (Snippet.method .standalone (cls.member method)) = _
  rw [Snippet.complete, (yields_hookBlock typed .standalone declared).runFresh]

theorem generate_field (field : JavaField) :
    Snippet.generate (.field (some (cls.member field))) =
      .ok (cls.probeBlock .standalone field) := by
  change Snippet.complete .field (Snippet.field .standalone (cls.member field)) = _
  rw [Snippet.complete, (yields_probeBlock .standalone field).runFresh]

theorem generate_cls (typed : ∀ method ∈ cls.methods, method.Typed) :
    Snippet.generate (.cls (some cls.view)) = .ok cls.snippet := by
  change Snippet.complete .cls (Snippet.cls cls.view) = _
  rw [Snippet.complete, (yields_snippet typed).runFresh]

end JavaClass

/-! ## Well-formed hooks and probes -/

/-- A hook whose names can be declared and whose selector consists of arguments for
selectors. -/
structure Hook.WellFormed (hook : Hook) : Prop where
  variableName : Script.isIdentifier hook.handle.variableName = true
  parameters : ∀ name ∈ hook.parameters, Script.isIdentifier name = true
  selector? : ∀ arguments ∈ hook.selector?, ∀ argument ∈ arguments,
    ∃ type : JavaType, type.WellFormed ∧ type.overloadArgument = argument

/-- A probe whose names can be declared. -/
structure Probe.WellFormed (probe : Probe) : Prop where
  className : Script.isIdentifier probe.handle.variableName = true
  variableName : Script.isIdentifier probe.variableName = true

namespace JavaClass.WellFormed

variable {cls : JavaClass}

theorem hook (wellFormed : cls.WellFormed) {method : JavaMethod} (declared : method ∈ cls.methods) :
    (cls.hook method).WellFormed := by
  have sound := wellFormed.methods method declared
  refine ⟨wellFormed.aliasName, sound.argumentNames, ?_⟩
  intro arguments selects argument listed
  change (if cls.overloads method = true then _ else _) = _ at selects
  split at selects
  · cases selects
    rcases List.mem_map.mp listed with ⟨type, argued, written⟩
    exact ⟨type, sound.typed.arguments type argued, written⟩
  · cases selects

theorem probe (wellFormed : cls.WellFormed) {field : JavaField} (declared : field ∈ cls.fields) :
    (cls.probe field).WellFormed :=
  ⟨wellFormed.aliasName, (wellFormed.fields field declared).aliasName⟩

end JavaClass.WellFormed

/-- The classes of a loaded model are well-formed. -/
theorem Model.wellFormed_of_loaded {document : Json} {model : Model} {cls : JavaClass}
    (loaded : Model.ofJson document = .ok model) (listed : cls ∈ model.classes) : cls.WellFormed :=
  (Model.ofJson_eq_ok.mp loaded).2.classes cls listed

theorem JavaClass.WellFormed.typed {cls : JavaClass} (wellFormed : cls.WellFormed) :
    ∀ method ∈ cls.methods, method.Typed :=
  fun method declared => (wellFormed.methods method declared).typed

end HookScript
