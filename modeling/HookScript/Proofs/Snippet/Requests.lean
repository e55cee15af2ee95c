import HookScript.Proofs.Snippet.Composition
import Mathlib.Data.List.Nodup

/-!
# Contexts in use

A context may be used for many requests, one after the other: for single look-ups and
for whole snippets, of members of any classes, and also for members that turn out to
have no owner.  Whatever is requested, all that happens to the context is that it is
consulted about the owners of the members in question.

So a property that consulting keeps is kept by every request, and by every sequence of
requests.  One such property is to know all of some classes as they are, as long as
these are told apart by their ids.
-/

namespace HookScript

/-! ## Steps that keep a property -/

namespace Composing

variable {α β : Type} {kept : Context → Prop}

/-- A step that leaves a property of the context as it is, even if something is missing. -/
def Keeps (kept : Context → Prop) (step : Composing α) : Prop :=
  ∀ context, kept context → kept (step.runWith context).2

theorem Keeps.pure (value : α) : Keeps kept (pure value) := fun _ holds => holds

theorem Keeps.bind {step : Composing α} {next : α → Composing β} (first : Keeps kept step)
    (second : ∀ value, Keeps kept (next value)) : Keeps kept (step >>= next) := by
  intro context holds
  have between := first context holds
  rw [runWith_bind]
  cases ran : step.runWith context with
  | mk result after =>
    rw [ran] at between
    cases result with
    | ok value => exact second value after between
    | error missing => exact between

theorem Keeps.mapM {steps : α → Composing β} {items : List α}
    (each : ∀ item ∈ items, Keeps kept (steps item)) : Keeps kept (items.mapM steps) := by
  induction items with
  | nil => exact Keeps.pure []
  | cons item items ih =>
    rcases List.forall_mem_cons.mp each with ⟨here, later⟩
    rw [List.mapM_cons]
    exact here.bind fun _ => (ih later).bind fun _ => Keeps.pure _

theorem Keeps.of_result (result : Except Missing α) : Keeps kept (liftM result) := by
  cases result with
  | ok value => exact Keeps.pure value
  | error missing => exact fun _ holds => holds

/-- Without an owner nothing happens. -/
theorem keeps_ownerOf {member : Member α} {next : Owner → Composing β}
    (each : ∀ owner ∈ member.owner?, Keeps kept (next owner)) :
    Keeps kept (ownerOf member >>= next) := by
  rw [ownerOf]
  cases owned : member.owner? with
  | none => exact fun _ holds => holds
  | some owner => exact each owner owned

theorem keeps_methodsNamed {owner : Owner}
    (asked : ∀ context, kept context → kept (context.consult owner)) (name : Text) :
    Keeps kept (methodsNamed owner name) :=
  asked

end Composing

open Composing

/-! ## Requests -/

/-- What a context may be used for. -/
inductive Request where
  | methodsNamed (owner : Owner) (name : Text)
  | overloaded (method : Member JavaMethod)
  | key (field : Member JavaField)
  | hook (placement : Placement) (method : Member JavaMethod)
  | probe (placement : Placement) (field : Member JavaField)
  | snippet (view : ClassView)

namespace Request

/-- The context after a request. -/
def serve (context : Context) : Request → Context
  | methodsNamed owner name => ((Composing.methodsNamed owner name).runWith context).2
  | overloaded method => ((Hook.overloadedIn method).runWith context).2
  | key field => ((Probe.keyIn field).runWith context).2
  | hook placement method => ((Snippet.method placement method).runWith context).2
  | probe placement field => ((Snippet.field placement field).runWith context).2
  | snippet view => ((Snippet.cls view).runWith context).2

/-- The classes that a request is about. -/
def owners : Request → List Owner
  | methodsNamed owner _ => [owner]
  | overloaded method | hook _ method => method.owner?.toList
  | key field | probe _ field => field.owner?.toList
  | snippet view => view.fields.filterMap Member.owner? ++ view.methods.filterMap Member.owner?

variable {kept : Context → Prop}

theorem keeps_overloaded {method : Member JavaMethod}
    (asked : ∀ owner ∈ method.owner?, ∀ context, kept context → kept (context.consult owner)) :
    Keeps kept (Hook.overloadedIn method) :=
  keeps_ownerOf fun owner owned =>
    (keeps_methodsNamed (asked owner owned) _).bind fun _ => Keeps.of_result _

theorem keeps_key {field : Member JavaField}
    (asked : ∀ owner ∈ field.owner?, ∀ context, kept context → kept (context.consult owner)) :
    Keeps kept (Probe.keyIn field) :=
  keeps_ownerOf fun owner owned =>
    (keeps_methodsNamed (asked owner owned) _).bind fun _ => Keeps.pure _

theorem keeps_hook {method : Member JavaMethod}
    (asked : ∀ owner ∈ method.owner?, ∀ context, kept context → kept (context.consult owner))
    (placement : Placement) : Keeps kept (Snippet.method placement method) := by
  have composed : Keeps kept (Hook.compose method) :=
    keeps_ownerOf fun _ _ => (keeps_overloaded asked).bind fun _ => Keeps.pure _
  exact composed.bind fun _ => Keeps.pure _

theorem keeps_probe {field : Member JavaField}
    (asked : ∀ owner ∈ field.owner?, ∀ context, kept context → kept (context.consult owner))
    (placement : Placement) : Keeps kept (Snippet.field placement field) := by
  have composed : Keeps kept (Probe.compose field) :=
    keeps_ownerOf fun _ _ => (keeps_key asked).bind fun _ => Keeps.pure _
  exact composed.bind fun _ => Keeps.pure _

theorem keeps_snippet {view : ClassView}
    (asked : ∀ owner ∈ (snippet view).owners, ∀ context,
      kept context → kept (context.consult owner)) : Keeps kept (Snippet.cls view) := by
  have probes : ∀ field ∈ view.fields, Keeps kept (Snippet.field .embedded field) := by
    intro field listed
    refine keeps_probe (fun owner owned => asked owner ?_) .embedded
    exact List.mem_append_left _ (List.mem_filterMap.mpr ⟨field, listed, owned⟩)
  have hooks : ∀ method ∈ view.methods.filter fun method => !method.item.isStaticInitializer,
      Keeps kept (Snippet.method .embedded method) := by
    intro method listed
    refine keeps_hook (fun owner owned => asked owner ?_) .embedded
    have declared := (List.mem_filter.mp listed).1
    exact List.mem_append_right _ (List.mem_filterMap.mpr ⟨method, declared, owned⟩)
  exact (Keeps.mapM probes).bind fun _ => (Keeps.mapM hooks).bind fun _ => Keeps.pure _

/-- A request consults the context about its own classes and does nothing else to it. -/
theorem kept_serve {request : Request} (asked : ∀ owner ∈ request.owners, ∀ context,
    kept context → kept (context.consult owner)) {context : Context} (holds : kept context) :
    kept (request.serve context) := by
  have ofMember : ∀ {owner? : Option Owner}, (∀ owner ∈ owner?.toList, ∀ context,
      kept context → kept (context.consult owner)) → ∀ owner ∈ owner?, ∀ context,
      kept context → kept (context.consult owner) :=
    fun asked owner owned => asked owner (Option.mem_toList.mpr owned)
  cases request with
  | methodsNamed owner name =>
    exact keeps_methodsNamed (asked owner List.mem_cons_self) name context holds
  | overloaded method => exact keeps_overloaded (ofMember asked) context holds
  | key field => exact keeps_key (ofMember asked) context holds
  | hook placement method => exact keeps_hook (ofMember asked) placement context holds
  | probe placement field => exact keeps_probe (ofMember asked) placement context holds
  | snippet view => exact keeps_snippet asked context holds

end Request

/-! ## What contexts know -/

namespace Context

variable {owners : List Owner} {context : Context}

/-- A context that would give the methods of all of some classes as they are. -/
def KnowsAll (context : Context) (owners : List Owner) : Prop :=
  ∀ owner ∈ owners, context.Knows owner

theorem KnowsAll.consult (apart : (owners.map Owner.id).Nodup) (knows : context.KnowsAll owners)
    {owner : Owner} (known : owner ∈ owners) : (context.consult owner).KnowsAll owners := by
  intro other listed
  by_cases same : other.id = owner.id
  · rw [List.inj_on_of_nodup_map apart listed known same]
    exact (knows owner known).consult
  · exact (context.indexOf_consult_of_id_ne same).trans (knows other listed)

/-- A context that was new and then used for requests about some classes. -/
def Served (context : Context) (owners : List Owner) : Prop :=
  ∃ requests : List Request, (∀ request ∈ requests, ∀ owner ∈ request.owners, owner ∈ owners) ∧
    requests.foldl Request.serve empty = context

/-- Requests leave a context that knows classes, however many there are. -/
theorem KnowsAll.foldl_serve (apart : (owners.map Owner.id).Nodup) {requests : List Request}
    (about : ∀ request ∈ requests, ∀ owner ∈ request.owners, owner ∈ owners)
    (knows : context.KnowsAll owners) : (requests.foldl Request.serve context).KnowsAll owners := by
  induction requests generalizing context with
  | nil => exact knows
  | cons request requests ih =>
    rcases List.forall_mem_cons.mp about with ⟨here, later⟩
    have asked : ∀ owner ∈ request.owners, ∀ context : Context, context.KnowsAll owners →
        (context.consult owner).KnowsAll owners :=
      fun owner listed _ knows => knows.consult apart (here owner listed)
    exact ih later (Request.kept_serve asked knows)

theorem Served.knowsAll (apart : (owners.map Owner.id).Nodup) (served : context.Served owners) :
    context.KnowsAll owners := by
  rcases served with ⟨requests, about, rfl⟩
  exact KnowsAll.foldl_serve apart about fun owner _ => knows_empty owner

end Context

end HookScript
