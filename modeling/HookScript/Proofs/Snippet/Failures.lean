import HookScript.Proofs.Program.Building
import HookScript.Proofs.Snippet.Composition

/-!
# When there is no snippet

A snippet is refused for two reasons.  What is selected may not be of a kind that can
be selected; or it may lack something, and then it is either not there at all or a
member without an owner.

Nothing else goes wrong in an assembly, however its classes and members were added to
each other.  A snippet of a class asks each listed member for its owner, which may be
any other class, and that class for its methods, which are compared by their
identities.  So the argument needs that listed members have owners and that methods have
identities, as the invariant of assemblies says, and that a context never gives methods
without identities.
-/

namespace HookScript

/-! ## Steps that give a value -/

namespace Composing

variable {α β : Type} {kept : Context → Prop}

/-- A step that gives some value, and leaves a property of the context as it is. -/
def Completes (kept : Context → Prop) (step : Composing α) : Prop :=
  ∀ context, kept context → ∃ value after, step.runWith context = (.ok value, after) ∧ kept after

theorem Completes.pure (value : α) : Completes kept (pure value) :=
  fun context keeps => ⟨value, context, rfl, keeps⟩

theorem Completes.bind {step : Composing α} {next : α → Composing β}
    (first : Completes kept step) (second : ∀ value, Completes kept (next value)) :
    Completes kept (step >>= next) := by
  intro context keeps
  rcases first context keeps with ⟨value, between, runs, keeps⟩
  rw [runWith_bind, runs]
  exact second value between keeps

theorem Completes.mapM {steps : α → Composing β} {items : List α}
    (each : ∀ item ∈ items, Completes kept (steps item)) : Completes kept (items.mapM steps) := by
  induction items with
  | nil => exact Completes.pure []
  | cons item items ih =>
    rcases List.forall_mem_cons.mp each with ⟨here, later⟩
    rw [List.mapM_cons]
    exact here.bind fun _ => (ih later).bind fun _ => Completes.pure _

theorem Completes.runFresh {step : Composing α} (completes : Completes kept step)
    (keeps : kept .empty) : ∃ value, step.runFresh = .ok value := by
  rcases completes .empty keeps with ⟨value, after, runs, _⟩
  exact ⟨value, congrArg Prod.fst runs⟩

theorem completes_ownerOf {member : Member α} {owner : Owner}
    (owned : member.owner? = some owner) : Completes kept (ownerOf member) := by
  rw [ownerOf, owned]
  exact Completes.pure owner

theorem runFresh_bind_of_error {step : Composing α} {next : α → Composing β} {missing : Missing}
    (failed : step.runFresh = .error missing) : (step >>= next).runFresh = .error missing := by
  rcases ran : step.runWith .empty with ⟨result, after⟩
  have fails : result = .error missing := (congrArg Prod.fst ran).symm.trans failed
  rw [runFresh, runWith_bind, ran, fails]

end Composing

/-! ## Methods with identities -/

namespace Context

variable {context : Context}

/-- A context that gives only methods with identities for classes that have no others. -/
def Identified (context : Context) : Prop :=
  ∀ owner : Owner, owner.Identified → ∀ name, ∀ method ∈ context.methodsNamed owner name,
    method.hasIdentity = true

theorem identified_empty : empty.Identified := by
  intro owner identified name method listed
  rw [methodsNamed, indexOf_empty, MethodIndex.named_ofMethods] at listed
  exact identified method (List.mem_filter.mp listed).1

theorem Identified.consult (keeps : context.Identified) {owner : Owner}
    (identified : owner.Identified) : (context.consult owner).Identified := by
  intro other otherIdentified name method listed
  by_cases same : other.id = owner.id
  · rw [methodsNamed, context.indexOf_consult_of_id_eq same] at listed
    exact keeps owner identified name method listed
  · rw [methodsNamed, context.indexOf_consult_of_id_ne same] at listed
    exact keeps other otherIdentified name method listed

end Context

open Composing

/-- A look-up of a class whose methods have identities sees only such methods. -/
theorem Composing.LooksUp.completes {α : Type} {owner : Owner} {step : Composing α}
    {reply : MethodIndex → Except Missing α} (looksUp : LooksUp owner step reply)
    (identified : owner.Identified)
    (replies : ∀ index : MethodIndex,
      (∀ name, ∀ method ∈ index.named name, method.hasIdentity = true) →
        ∃ value, reply index = .ok value) : Completes Context.Identified step := by
  intro context keeps
  rcases replies (context.indexOf owner) (keeps owner identified) with ⟨value, found⟩
  refine ⟨value, context.consult owner, ?_, keeps.consult identified⟩
  rw [looksUp context, found]

/-! ## Snippets of members with owners -/

namespace Member.Grounded

theorem completes_method {method : Member JavaMethod} (grounded : method.Grounded)
    (identity : method.item.hasIdentity = true) (placement : Placement) :
    Completes Context.Identified (Snippet.method placement method) := by
  rcases grounded with ⟨owner, owned, identified⟩
  have overloaded : Completes Context.Identified (Hook.overloadedIn method) :=
    (looksUp_overloadedIn owned).completes identified fun _ comparable =>
      ⟨_, Hook.isOverloaded_of_hasIdentity identity (comparable _)⟩
  have composed : Completes Context.Identified (Hook.compose method) :=
    (completes_ownerOf owned).bind fun _ => overloaded.bind fun _ => Completes.pure _
  exact composed.bind fun _ => Completes.pure _

theorem completes_field {field : Member JavaField} (grounded : field.Grounded)
    (placement : Placement) : Completes Context.Identified (Snippet.field placement field) := by
  rcases grounded with ⟨owner, owned, identified⟩
  have key : Completes Context.Identified (Probe.keyIn field) :=
    (looksUp_keyIn owned).completes identified fun _ _ => ⟨_, rfl⟩
  have composed : Completes Context.Identified (Probe.compose field) :=
    (completes_ownerOf owned).bind fun _ => key.bind fun _ => Completes.pure _
  exact composed.bind fun _ => Completes.pure _

end Member.Grounded

/-- All that a class lists has an owner, so its snippet is never refused. -/
theorem Assembly.Sound.completes_cls {assembly : Assembly} (sound : assembly.Sound) {id : ClassId}
    {view : ClassView} (found : assembly.view? id = some view) :
    Completes Context.Identified (Snippet.cls view) := by
  have probes : ∀ field ∈ view.fields, Completes Context.Identified (Snippet.field .embedded field) :=
    fun field listed => (sound.grounded_field found field listed).completes_field .embedded
  have hooks : ∀ method ∈ view.methods.filter fun method => !method.item.isStaticInitializer,
      Completes Context.Identified (Snippet.method .embedded method) := by
    intro method hooked
    rcases sound.grounded_method found method (List.mem_filter.mp hooked).1 with
      ⟨grounded, identity⟩
    exact grounded.completes_method identity .embedded
  exact (Completes.mapM probes).bind fun _ => (Completes.mapM hooks).bind fun _ => Completes.pure _

/-! ## Selections -/

/-- Whether what is referred to is there, and has an owner if it is a member. -/
def Selection.isComplete : Selection → Bool
  | .cls view? => view?.isSome
  | .method method? => (method?.bind Member.owner?).isSome
  | .field field? => (field?.bind Member.owner?).isSome
  | .foreign _ => false

/-- The selections that can be made while an assembly is as it is.  Any of the references
may be to nothing. -/
inductive Assembly.Offers (assembly : Assembly) : Selection → Prop where
  | cls (id? : Option ClassId) : Offers assembly (.cls (id?.bind assembly.view?))
  | method (id? : Option MethodId) : Offers assembly (.method (id?.bind assembly.method?))
  | field (id? : Option FieldId) : Offers assembly (.field (id?.bind assembly.field?))
  | foreign (thing : Foreign) : Offers assembly (.foreign thing)

namespace Snippet

theorem exists_complete_eq_ok {subject : Subject} {snippet : Composing Text} :
    (∃ text, complete subject snippet = .ok text) ↔ ∃ text, snippet.runFresh = .ok text := by
  rw [complete]
  constructor
  · rintro ⟨text, generated⟩
    split at generated
    next found =>
      cases generated
      exact ⟨text, found⟩
    next => cases generated
  · rintro ⟨text, found⟩
    rw [found]
    exact ⟨text, rfl⟩

theorem complete_ne_unsupported (subject : Subject) (snippet : Composing Text) (kind : ForeignKind) :
    complete subject snippet ≠ .error (.unsupported kind) := by
  intro refused
  rw [complete] at refused
  split at refused <;> cases refused

theorem runFresh_method_of_unowned {method : Member JavaMethod} (unowned : method.owner? = none)
    (placement : Placement) : (Snippet.method placement method).runFresh = .error .methods :=
  runFresh_bind_of_error (congrArg Prod.fst (runWith_ownerOf_bind unowned .empty))

theorem runFresh_field_of_unowned {field : Member JavaField} (unowned : field.owner? = none)
    (placement : Placement) : (Snippet.field placement field).runFresh = .error .methods :=
  runFresh_bind_of_error (congrArg Prod.fst (runWith_ownerOf_bind unowned .empty))

/-- Only the kind of a selection makes it unsupported. -/
theorem generate_unsupported_iff (selection : Selection) :
    (∃ kind, generate selection = .error (.unsupported kind)) ↔ selection.isSupported = false := by
  cases selection with
  | foreign thing => exact ⟨fun _ => rfl, fun _ => ⟨thing.kind, rfl⟩⟩
  | cls _ | method _ | field _ =>
    exact ⟨fun ⟨kind, refused⟩ => absurd refused (complete_ne_unsupported _ _ kind), nofun⟩

end Snippet

theorem Snippet.runFresh_reference {α : Type} {compose : Member α → Composing Text}
    {member? : Option (Member α)}
    (owned : ∀ member ∈ member?, ∀ owner, member.owner? = some owner →
      Completes Context.Identified (compose member))
    (unowned : ∀ member ∈ member?, member.owner? = none →
      (compose member).runFresh = .error .methods) :
    (∃ text, (reference .owner compose member?).runFresh = .ok text) ↔
      (member?.bind Member.owner?).isSome = true := by
  cases member? with
  | none => exact ⟨nofun, nofun⟩
  | some member =>
    rw [Option.bind_some, reference]
    cases has : member.owner? with
    | none =>
      rw [unowned member rfl has]
      exact ⟨nofun, nofun⟩
    | some owner =>
      exact ⟨fun _ => rfl, fun _ => (owned member rfl owner has).runFresh Context.identified_empty⟩

namespace Assembly

open Snippet

variable {assembly : Assembly} {selection : Selection}

namespace Sound

theorem runFresh_cls (sound : assembly.Sound) (id? : Option ClassId) :
    (∃ text, (reference .rawName Snippet.cls (id?.bind assembly.view?)).runFresh = .ok text) ↔
      (id?.bind assembly.view?).isSome = true := by
  cases found : id?.bind assembly.view? with
  | none => exact ⟨nofun, nofun⟩
  | some view =>
    rcases Option.bind_eq_some_iff.mp found with ⟨id, _, there⟩
    exact ⟨fun _ => rfl, fun _ => (sound.completes_cls there).runFresh Context.identified_empty⟩

theorem runFresh_method (sound : assembly.Sound) (id? : Option MethodId) :
    (∃ text, (reference .owner (Snippet.method .standalone)
      (id?.bind assembly.method?)).runFresh = .ok text) ↔
      ((id?.bind assembly.method?).bind Member.owner?).isSome = true := by
  refine runFresh_reference ?_ fun _ _ unowned => runFresh_method_of_unowned unowned .standalone
  intro method found owner owned
  rcases Option.bind_eq_some_iff.mp found with ⟨id, _, there⟩
  rcases Option.map_eq_some_iff.mp there with ⟨member, made, rfl⟩
  exact (sound.grounded_of_owner? owned).completes_method (sound.identified_of_getElem? made)
    .standalone

theorem runFresh_field (sound : assembly.Sound) (id? : Option FieldId) :
    (∃ text, (reference .owner (Snippet.field .standalone)
      (id?.bind assembly.field?)).runFresh = .ok text) ↔
      ((id?.bind assembly.field?).bind Member.owner?).isSome = true := by
  refine runFresh_reference ?_ fun _ _ unowned => runFresh_field_of_unowned unowned .standalone
  intro field found owner owned
  rcases Option.bind_eq_some_iff.mp found with ⟨id, _, there⟩
  rcases Option.map_eq_some_iff.mp there with ⟨member, _, rfl⟩
  exact (sound.grounded_of_owner? owned).completes_field .standalone

/-- There is a snippet exactly of what is complete. -/
theorem generate_ok_iff (sound : assembly.Sound) (offered : assembly.Offers selection) :
    (∃ text, generate selection = .ok text) ↔ selection.isComplete = true := by
  cases offered with
  | cls id? => exact exists_complete_eq_ok.trans (sound.runFresh_cls id?)
  | method id? => exact exists_complete_eq_ok.trans (sound.runFresh_method id?)
  | field id? => exact exists_complete_eq_ok.trans (sound.runFresh_field id?)
  | foreign thing => exact ⟨nofun, nofun⟩

end Sound

theorem Offers.of_view {id : ClassId} {view : ClassView} (found : assembly.view? id = some view) :
    assembly.Offers (.cls (some view)) := by
  rw [← found]
  exact .cls (some id)

/-- A selection is refused as unsupported exactly if it is no reference at all.  A
reference gives a snippet exactly if what it refers to is there, and has an owner if
it is a member; otherwise it is refused because something is missing.  Every class of an
assembly has a snippet, whichever classes own the members in its lists. -/
theorem Built.refusals (built : assembly.Built) (offered : assembly.Offers selection) :
    ((∃ kind, generate selection = .error (.unsupported kind)) ↔ selection.isSupported = false) ∧
      ((∃ text, generate selection = .ok text) ↔
        selection.isSupported = true ∧ selection.isComplete = true) ∧
      ((∃ subject missing, generate selection = .error (.incomplete subject missing)) ↔
        selection.isSupported = true ∧ selection.isComplete = false) ∧
      ∀ id view, assembly.view? id = some view → ∃ text, generate (.cls (some view)) = .ok text := by
  have unsupported := generate_unsupported_iff selection
  have generated : (∃ text, generate selection = .ok text) ↔
      selection.isSupported = true ∧ selection.isComplete = true := by
    rw [built.sound.generate_ok_iff offered]
    refine ⟨fun complete => ⟨?_, complete⟩, And.right⟩
    cases offered with
    | foreign thing => exact nomatch complete
    | _ => rfl
  refine ⟨unsupported, generated, ⟨?_, ?_⟩, ?_⟩
  · rintro ⟨subject, missing, failed⟩
    rw [failed] at unsupported generated
    have supported : selection.isSupported = true := by
      rw [← Bool.not_eq_false]
      exact fun foreign => nomatch unsupported.mpr foreign
    refine ⟨supported, ?_⟩
    rw [← Bool.not_eq_true]
    exact fun complete => nomatch generated.mpr ⟨supported, complete⟩
  · rintro ⟨supported, incomplete⟩
    rw [supported] at unsupported
    rw [incomplete] at generated
    cases result : generate selection with
    | ok text => exact nomatch (generated.mp ⟨text, result⟩).2
    | error failure =>
      cases failure with
      | unsupported kind => exact nomatch unsupported.mp ⟨kind, result⟩
      | incomplete subject missing => exact ⟨subject, missing, rfl⟩
  · intro id view found
    exact (built.sound.generate_ok_iff (.of_view found)).mpr rfl

/-- A method in the lists of two classes, and a field in none. -/
def handedOver : Assembly :=
  let classes := ((Assembly.empty.makeClass "a.First" "First").1.makeClass "a.Second" "Second").1
  let members := ((classes.makeMethod ⟨"run", "run", [], .void, [], false⟩).1.makeField
    ⟨"size", "size", none⟩).1
  (members.addMethod ⟨0⟩ ⟨0⟩).addMethod ⟨1⟩ ⟨0⟩

theorem built_handedOver : handedOver.Built := by
  refine .step (.step (.step (.step (.step (.step .empty (.makeClass _ _)) (.makeClass _ _))
    (.makeMethod ?_)) (.makeField _)) (.addMethod ?_ ?_)) (.addMethod ?_ ?_) <;> decide

/-- The first class has a snippet although the second owns its method, and the field
has none. -/
theorem refusals_handedOver :
    (∃ text, generate (.cls (handedOver.view? ⟨0⟩)) = .ok text) ∧
      ∃ subject missing, generate (.field (handedOver.field? ⟨0⟩)) =
        .error (.incomplete subject missing) := by
  constructor
  · exact (built_handedOver.refusals (.cls (some ⟨0⟩))).2.1.mpr ⟨rfl, rfl⟩
  · exact (built_handedOver.refusals (.field (some ⟨0⟩))).2.2.1.mpr ⟨rfl, rfl⟩

end Assembly

end HookScript
