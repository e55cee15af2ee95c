import HookScript.Proofs.Program.Building
import HookScript.Proofs.Snippet.Composition

/-!
# Contexts while classes change

Classes may gain methods while contexts are in use.  A context indexes the methods of a
class when it is first asked about the class, and from then on answers from the index, so
it shows the class as it was at that moment.  Only the first such question counts: neither
do other contexts, nor other classes, even if they look the same.

What a context has seen of one class is changed by one kind of event only, a question
about this class through this context while it has seen nothing of it.  This is
`kept_step`; the rest follows by induction over the events.
-/

namespace HookScript

open Composing

/-! ## Queries -/

/-- What a context can be asked.  All but the first ask about the class that owns a
member. -/
inductive Query where
  | named (cls : ClassId) (name : Text)
  | overloaded (method : MethodId)
  | key (field : FieldId)

/-- What a context answers. -/
inductive Answer where
  | methods (found : List JavaMethod)
  | overloaded (isOverloaded : Bool)
  | key (key : Text)

namespace Query

/-- The class that the context is asked about. -/
def owner? (assembly : Assembly) : Query → Option Owner
  | named cls _ => assembly.owner? cls
  | overloaded id => (assembly.method? id).bind Member.owner?
  | key id => (assembly.field? id).bind Member.owner?

/-- How the answer is put together. -/
def compose (assembly : Assembly) : Query → Composing Answer
  | named cls name =>
    match assembly.owner? cls with
    | some owner => return .methods (← methodsNamed owner name)
    | none => throw .methods
  | overloaded id =>
    match assembly.method? id with
    | some method => return .overloaded (← Hook.overloadedIn method)
    | none => throw .owner
  | key id =>
    match assembly.field? id with
    | some field => return .key (← Probe.keyIn field)
    | none => throw .owner

variable {assembly : Assembly} {query : Query} {owner : Owner}

theorem looksUp_named {cls : ClassId} (found : assembly.owner? cls = some owner) (name : Text) :
    LooksUp owner ((named cls name).compose assembly)
      fun index => .ok (.methods (index.named name)) := by
  rw [compose, found]
  exact (looksUp_methodsNamed name).bind fun methods => .ok (Answer.methods methods)

theorem exists_looksUp (found : query.owner? assembly = some owner) :
    ∃ reply, LooksUp owner (query.compose assembly) reply := by
  cases query with
  | named cls name => exact ⟨_, looksUp_named found name⟩
  | overloaded id =>
    rcases Option.bind_eq_some_iff.mp found with ⟨method, there, owned⟩
    rw [compose, there]
    exact ⟨_, (looksUp_overloadedIn owned).bind fun answer => .ok (Answer.overloaded answer)⟩
  | key id =>
    rcases Option.bind_eq_some_iff.mp found with ⟨field, there, owned⟩
    rw [compose, there]
    exact ⟨_, (looksUp_keyIn owned).bind fun answer => .ok (Answer.key answer)⟩

/-- A query about no class leaves its context alone. -/
theorem runWith_compose_of_none (unowned : query.owner? assembly = none) (context : Context) :
    ((query.compose assembly).runWith context).2 = context := by
  cases query with
  | named cls name =>
    rw [owner?] at unowned
    rw [compose, unowned]
    rfl
  | overloaded id =>
    rw [compose]
    cases there : assembly.method? id with
    | none => rfl
    | some method =>
      rw [owner?, there] at unowned
      have failed : (Hook.overloadedIn method).runWith context = (.error .methods, context) :=
        runWith_ownerOf_bind unowned context
      change ((Hook.overloadedIn method >>= fun answer => pure (Answer.overloaded answer)).runWith
        context).2 = context
      rw [runWith_bind, failed]
  | key id =>
    rw [compose]
    cases there : assembly.field? id with
    | none => rfl
    | some field =>
      rw [owner?, there] at unowned
      have failed : (Probe.keyIn field).runWith context = (.error .methods, context) :=
        runWith_ownerOf_bind unowned context
      change ((Probe.keyIn field >>= fun answer => pure (Answer.key answer)).runWith
        context).2 = context
      rw [runWith_bind, failed]

end Query

/-! ## Owners and their methods -/

namespace Assembly

variable {assembly : Assembly} {id : ClassId} {owner : Owner}

/-- The methods in the list of a class, in the order in which they were added. -/
def declared (assembly : Assembly) (id : ClassId) : List JavaMethod :=
  ((assembly.owner? id).map Owner.methods).getD []

/-- The methods of a raw name in the list of a class. -/
def declaredAs (assembly : Assembly) (id : ClassId) (name : Text) : List JavaMethod :=
  (assembly.declared id).filter fun method => method.rawName = name

theorem id_of_owner? (found : assembly.owner? id = some owner) : owner.id = id := by
  rcases Option.map_eq_some_iff.mp found with ⟨cls, _, rfl⟩
  rfl

theorem methods_of_owner? (found : assembly.owner? id = some owner) :
    owner.methods = assembly.declared id := by
  rw [declared, found, Option.map_some, Option.getD_some]

/-- A member is owned by one of the classes as they are. -/
theorem owner?_of_member {α : Type} {member : AssembledMember α}
    (owned : (assembly.member member).owner? = some owner) :
    assembly.owner? owner.id = some owner := by
  rcases Option.bind_eq_some_iff.mp owned with ⟨id, _, found⟩
  rw [id_of_owner? found]
  exact found

theorem items_addMethod (assembly : Assembly) (cls : ClassId) (method : MethodId) (index : Nat) :
    (assembly.addMethod cls method).methods[index]?.map AssembledMember.item =
      assembly.methods[index]?.map AssembledMember.item := by
  simp only [addMethod, List.getElem?_modify]
  cases assembly.methods[index]? with
  | none => rfl
  | some member =>
    by_cases here : method.index = index
    · simp only [here, if_true, Option.map_eq_map, Option.map_some]
    · simp only [here, if_false, Option.map_eq_map, Option.map_some]

/-- Only the class that gains a method is changed by it. -/
theorem declared_addMethod_of_ne {cls : ClassId} (different : cls ≠ id) (method : MethodId) :
    (assembly.addMethod cls method).declared id = assembly.declared id := by
  have other : ¬cls.index = id.index := fun same => different (congrArg ClassId.mk same)
  have listed : ∀ assembled : AssembledClass,
      (assembly.addMethod cls method).methodsOf assembled = assembly.methodsOf assembled := by
    intro assembled
    simp only [methodsOf, items_addMethod]
  have same : (assembly.addMethod cls method).classes[id.index]? = assembly.classes[id.index]? :=
    List.getElem?_modify_ne _ _ other
  simp only [declared, owner?, same, listed]

end Assembly

theorem Query.owner?_eq_some {assembly : Assembly} {query : Query} {owner : Owner}
    (found : query.owner? assembly = some owner) : assembly.owner? owner.id = some owner := by
  cases query with
  | named cls name =>
    have same := Assembly.id_of_owner? found
    rw [same]
    exact found
  | overloaded id =>
    rcases Option.bind_eq_some_iff.mp found with ⟨method, there, owned⟩
    rcases Option.map_eq_some_iff.mp there with ⟨member, _, rfl⟩
    exact Assembly.owner?_of_member owned
  | key id =>
    rcases Option.bind_eq_some_iff.mp found with ⟨field, there, owned⟩
    rcases Option.map_eq_some_iff.mp there with ⟨member, _, rfl⟩
    exact Assembly.owner?_of_member owned

/-! ## Sessions -/

/-- Refers to a context. -/
structure ContextId where
  index : Nat
deriving DecidableEq

/-- Classes that are being built, and contexts that are in use meanwhile. -/
structure Session where
  assembly : Assembly
  contexts : ContextId → Context

/-- What happens in a session. -/
inductive Event where
  | addMethod (cls : ClassId) (method : MethodId)
  | ask (context : ContextId) (query : Query)

namespace Event

/-- Whether a class gains a method. -/
def addsTo (cls : ClassId) : Event → Bool
  | addMethod other _ => other = cls
  | ask _ _ => false

/-- Whether a context is asked about a class. -/
def asks (assembly : Assembly) (context : ContextId) (cls : ClassId) : Event → Bool
  | addMethod _ _ => false
  | ask other query => other = context ∧ (query.owner? assembly).map Owner.id = some cls

end Event

namespace Session

/-- No context has been used. -/
def start (assembly : Assembly) : Session := ⟨assembly, fun _ => .empty⟩

/-- The answer to a query, as things are. -/
def answer (session : Session) (context : ContextId) (query : Query) : Except Missing Answer :=
  ((query.compose session.assembly).runWith (session.contexts context)).1

def step (session : Session) : Event → Session
  | .addMethod cls method => { session with assembly := session.assembly.addMethod cls method }
  | .ask context query =>
    let after := ((query.compose session.assembly).runWith (session.contexts context)).2
    { session with contexts := Function.update session.contexts context after }

def run (session : Session) (events : List Event) : Session := events.foldl step session

theorem run_append (session : Session) (before after : List Event) :
    session.run (before ++ after) = (session.run before).run after :=
  List.foldl_append

/-- How many events happen before a context is asked about a class.  If it never is, then
all of them do. -/
def firstAsk (context : ContextId) (cls : ClassId) (session : Session) : List Event → Nat
  | [] => 0
  | event :: rest =>
    if event.asks session.assembly context cls then 0
    else firstAsk context cls (session.step event) rest + 1

/-- The session just before a context is first asked about a class. -/
def beforeAsk (session : Session) (context : ContextId) (cls : ClassId) (events : List Event) :
    Session :=
  session.run (events.take (session.firstAsk context cls events))

/-- What happens from when a context is first asked about a class. -/
def sinceAsk (session : Session) (context : ContextId) (cls : ClassId) (events : List Event) :
    List Event :=
  events.drop (session.firstAsk context cls events)

/-! ## What a context has seen of a class -/

variable {session other : Session} {context : ContextId} {cls : ClassId}

/-- The index of a class that a context keeps, if it has been asked about the class. -/
def kept (session : Session) (context : ContextId) (cls : ClassId) : Option MethodIndex :=
  (session.contexts context).seen.lookup cls

/-- The index of a class that a context answers from. -/
def index (session : Session) (context : ContextId) (cls : ClassId) : MethodIndex :=
  (session.kept context cls).getD (.ofMethods (session.assembly.declared cls))

theorem indexOf_eq {owner : Owner} (found : session.assembly.owner? owner.id = some owner) :
    (session.contexts context).indexOf owner = session.index context owner.id := by
  rw [Context.indexOf, Assembly.methods_of_owner? found]
  rfl

theorem kept_step_ask (session : Session) (context asked : ContextId) (query : Query) (cls : ClassId) :
    (session.step (.ask asked query)).kept context cls =
      if (Event.ask asked query).asks session.assembly context cls then
        some (session.index context cls)
      else session.kept context cls := by
  by_cases here : context = asked
  · subst here
    have after : (session.step (.ask context query)).contexts context =
        ((query.compose session.assembly).runWith (session.contexts context)).2 :=
      Function.update_self ..
    rw [kept, after]
    cases found : query.owner? session.assembly with
    | none =>
      rw [query.runWith_compose_of_none found]
      simp only [Event.asks, found, Option.map_none, reduceCtorEq, and_false, decide_false]
      rfl
    | some owner =>
      rcases Query.exists_looksUp found with ⟨reply, looksUp⟩
      rw [looksUp, Context.consult, List.lookup_cons, indexOf_eq (Query.owner?_eq_some found)]
      by_cases same : owner.id = cls
      · subst same
        simp only [Event.asks, found, Option.map_some, and_self, decide_true, if_true,
          beq_self_eq_true]
      · simp only [Event.asks, found, Option.map_some, Option.some.injEq, same, and_false,
          decide_false, beq_false_of_ne (Ne.symm same)]
        rfl
  · have elsewhere : (session.step (.ask asked query)).contexts context = session.contexts context :=
      Function.update_of_ne here ..
    simp only [kept, elsewhere, Event.asks, Ne.symm here, false_and, decide_false]
    rfl

/-- A context keeps the index of a class from when it is first asked about the class;
nothing else changes what it keeps. -/
theorem kept_step (session : Session) (context : ContextId) (cls : ClassId) (event : Event) :
    (session.step event).kept context cls =
      if event.asks session.assembly context cls then some (session.index context cls)
      else session.kept context cls := by
  cases event with
  | addMethod => rfl
  | ask asked query => exact session.kept_step_ask context asked query cls

theorem kept_run_of_some {index : MethodIndex} (keeps : session.kept context cls = some index)
    (events : List Event) : (session.run events).kept context cls = some index := by
  induction events generalizing session with
  | nil => exact keeps
  | cons event rest ih =>
    apply ih
    rw [kept_step, Session.index, keeps]
    exact ite_self _

/-- After any events, a context answers from the class as it was when the context was first
asked about it. -/
theorem index_run (unseen : session.kept context cls = none) (events : List Event) :
    (session.run events).index context cls =
      .ofMethods ((session.beforeAsk context cls events).assembly.declared cls) := by
  induction events generalizing session with
  | nil => exact congrArg (Option.getD · _) unseen
  | cons event rest ih =>
    have after := session.kept_step context cls event
    -- at the first question the class is as it will be shown; before it, nothing is kept
    by_cases asks : event.asks session.assembly context cls = true
    · rw [if_pos asks] at after
      rw [Session.index, run, List.foldl_cons, ← run, kept_run_of_some after, beforeAsk, firstAsk,
        if_pos asks]
      exact congrArg (Option.getD · _) unseen
    · rw [if_neg asks, unseen] at after
      have later := ih after
      rw [beforeAsk] at later
      rw [beforeAsk, firstAsk, if_neg asks]
      exact later

/-! ## Answers -/

theorem answer_named (made : cls.index < session.assembly.classes.length) (name : Text) :
    session.answer context (.named cls name) =
      .ok (.methods ((session.index context cls).named name)) := by
  rcases Assembly.exists_owner? made with ⟨owner, found⟩
  have same := Assembly.id_of_owner? found
  rw [answer, Query.looksUp_named found, indexOf_eq (same.symm ▸ found), same]

/-- Two sessions with the same classes, in which a context has seen the same of one of
them. -/
structure Alike (context : ContextId) (cls : ClassId) (session other : Session) : Prop where
  assembly : session.assembly = other.assembly
  kept : session.kept context cls = other.kept context cls

theorem Alike.step (alike : Alike context cls session other) (event : Event) :
    Alike context cls (session.step event) (other.step event) := by
  constructor
  · cases event with
    | addMethod target method => exact congrArg (Assembly.addMethod · target method) alike.assembly
    | ask asked query => exact alike.assembly
  · rw [kept_step, kept_step, Session.index, Session.index, alike.assembly, alike.kept]

theorem Alike.run (alike : Alike context cls session other) (events : List Event) :
    Alike context cls (session.run events) (other.run events) := by
  induction events generalizing session other with
  | nil => exact alike
  | cons event rest ih => exact ih (alike.step event)

/-- Queries about the class are answered alike. -/
theorem Alike.answer (alike : Alike context cls session other) {query : Query} {owner : Owner}
    (found : query.owner? session.assembly = some owner) (same : owner.id = cls) :
    session.answer context query = other.answer context query := by
  subst same
  rcases Query.exists_looksUp found with ⟨reply, looksUp⟩
  have there := Query.owner?_eq_some found
  rw [Session.answer, Session.answer, ← alike.assembly, looksUp, looksUp, indexOf_eq there,
    indexOf_eq (alike.assembly ▸ there), Session.index, Session.index, alike.assembly, alike.kept]

/-- A question about another class or through another context goes unnoticed. -/
theorem alike_step_ask {asked : ContextId} {query : Query}
    (elsewhere : (Event.ask asked query).asks session.assembly context cls = false) :
    Alike context cls (session.step (.ask asked query)) session := by
  refine ⟨rfl, ?_⟩
  rw [kept_step, elsewhere]
  rfl

/-! ## Classes that gain no methods -/

theorem made_step (made : cls.index < session.assembly.classes.length) (event : Event) :
    cls.index < (session.step event).assembly.classes.length := by
  cases event with
  | addMethod target method =>
    exact Nat.lt_of_lt_of_eq made (Assembly.length_classes_addMethod ..).symm
  | ask asked query => exact made

theorem made_run (made : cls.index < session.assembly.classes.length) (events : List Event) :
    cls.index < (session.run events).assembly.classes.length := by
  induction events generalizing session with
  | nil => exact made
  | cons event rest ih => exact ih (made_step made event)

theorem declared_step {event : Event} (quiet : event.addsTo cls = false) :
    (session.step event).assembly.declared cls = session.assembly.declared cls := by
  cases event with
  | addMethod target method =>
    exact Assembly.declared_addMethod_of_ne (of_decide_eq_false quiet) method
  | ask asked query => rfl

theorem declared_run {events : List Event} (quiet : ∀ event ∈ events, event.addsTo cls = false) :
    (session.run events).assembly.declared cls = session.assembly.declared cls := by
  induction events generalizing session with
  | nil => rfl
  | cons event rest ih =>
    rcases List.forall_mem_cons.mp quiet with ⟨here, later⟩
    exact (ih later).trans (declared_step here)

theorem run_sinceAsk (session : Session) (context : ContextId) (cls : ClassId) (events : List Event) :
    (session.beforeAsk context cls events).run (session.sinceAsk context cls events) =
      session.run events := by
  rw [beforeAsk, sinceAsk, ← run_append, List.take_append_drop]

/-- If the class has gained no method since the first question, the context is up to date. -/
theorem index_run_of_quiet (unseen : session.kept context cls = none) {events : List Event}
    (quiet : ∀ event ∈ session.sinceAsk context cls events, event.addsTo cls = false) :
    (session.run events).index context cls =
      .ofMethods ((session.run events).assembly.declared cls) := by
  rw [index_run unseen, ← declared_run quiet, run_sinceAsk]

theorem index_step {event : Event} (quiet : event.addsTo cls = false) :
    (session.step event).index context cls = session.index context cls := by
  rw [index, kept_step, declared_step quiet]
  by_cases asks : event.asks session.assembly context cls = true
  · rw [if_pos asks, Option.getD_some]
  · rw [if_neg asks, index]

theorem answer_eq_runFresh {query : Query} {owner : Owner}
    (found : query.owner? session.assembly = some owner)
    (current : session.index context owner.id = .ofMethods (session.assembly.declared owner.id)) :
    session.answer context query = (query.compose session.assembly).runFresh := by
  rcases Query.exists_looksUp found with ⟨reply, looksUp⟩
  have there := Query.owner?_eq_some found
  rw [answer, runFresh, looksUp, looksUp, indexOf_eq there, current, Context.indexOf_empty,
    Assembly.methods_of_owner? there]

/-! ## Snapshots -/

/-- A context shows the methods of a class as they were when it was first asked about the
class, in their order.  Nothing but new methods of the class can change what it shows, and
a question about another class or through another context makes no difference to any later
answer.  If the class has gained no method since it was first asked about, then the methods
are those that the class has now, and all answers are those of a new context. -/
theorem snapshot (assembly : Assembly) (events : List Event) (context : ContextId) {cls : ClassId}
    (made : cls.index < assembly.classes.length) :
    (∀ name, ((start assembly).run events).answer context (.named cls name) =
        .ok (.methods
          (((start assembly).beforeAsk context cls events).assembly.declaredAs cls name))) ∧
      (∀ event : Event, event.addsTo cls = false → ∀ name,
        (((start assembly).run events).step event).answer context (.named cls name) =
          ((start assembly).run events).answer context (.named cls name)) ∧
      (∀ before asked question after, events = before ++ .ask asked question :: after →
        (Event.ask asked question).asks ((start assembly).run before).assembly context cls = false →
          ∀ query owner, query.owner? ((start assembly).run events).assembly = some owner →
            owner.id = cls → ((start assembly).run events).answer context query =
              ((start assembly).run (before ++ after)).answer context query) ∧
      ((∀ event ∈ (start assembly).sinceAsk context cls events, event.addsTo cls = false) →
        (∀ name, ((start assembly).run events).answer context (.named cls name) =
          .ok (.methods (((start assembly).run events).assembly.declaredAs cls name))) ∧
        ∀ query owner, query.owner? ((start assembly).run events).assembly = some owner →
          owner.id = cls → ((start assembly).run events).answer context query =
            (query.compose ((start assembly).run events).assembly).runFresh) := by
  have unseen : (start assembly).kept context cls = none := rfl
  have there : cls.index < ((start assembly).run events).assembly.classes.length :=
    made_run made events
  refine ⟨?_, ?_, ?_, ?_⟩
  · intro name
    rw [answer_named there, index_run unseen, MethodIndex.named_ofMethods, Assembly.declaredAs]
  · intro event quiet name
    rw [answer_named there, answer_named (made_step there event), index_step quiet]
  · rintro before asked question after rfl elsewhere query owner found same
    have alike := (alike_step_ask elsewhere).run after
    rw [run_append] at found
    rw [run_append, run_append]
    exact alike.answer found same
  · intro quiet
    have current := index_run_of_quiet unseen quiet
    constructor
    · intro name
      rw [answer_named there, current, MethodIndex.named_ofMethods, Assembly.declaredAs]
    · rintro query owner found rfl
      exact answer_eq_runFresh found current

/-- Two classes that look the same, and two methods. -/
def twins : Assembly :=
  let classes := ((Assembly.empty.makeClass "a.Twin" "Twin").1.makeClass "a.Twin" "Twin").1
  ((classes.makeMethod ⟨"run", "run", [], .void, [], false⟩).1.makeMethod
    ⟨"run", "run", [.primitive .int], .void, ["p0"], false⟩).1

/-- The first class gains both methods, and one context is asked in between, about both
classes. -/
def twinEvents : List Event :=
  [.addMethod ⟨0⟩ ⟨0⟩, .ask ⟨0⟩ (.named ⟨1⟩ "run"), .ask ⟨0⟩ (.overloaded ⟨0⟩),
    .addMethod ⟨0⟩ ⟨1⟩]

/-- That context shows only the first method, another one both. -/
theorem snapshot_twins :
    ((start twins).run twinEvents).answer ⟨0⟩ (.named ⟨0⟩ "run") =
        .ok (.methods [⟨"run", "run", [], .void, [], false⟩]) ∧
      ((start twins).run twinEvents).answer ⟨1⟩ (.named ⟨0⟩ "run") =
        .ok (.methods [⟨"run", "run", [], .void, [], false⟩,
          ⟨"run", "run", [.primitive .int], .void, ["p0"], false⟩]) := by
  constructor
  · exact (snapshot twins twinEvents ⟨0⟩ (by decide)).1 "run"
  · exact (snapshot twins twinEvents ⟨1⟩ (by decide)).1 "run"

end Session

end HookScript
