import HookScript.Proofs.CommandLine.Reload
import HookScript.Proofs.Program.Resolution

/-!
# Phases of a run

A run loads a model, selects from it and generates a snippet, and it may stop after any
of these phases.  Runs that stop at different phases agree in what they have in common:
what fails early fails in the same way however far the run was to go, and nothing fails
after the selection.  For whatever is selected from a loaded model has a description
and a snippet.

A run takes it for granted that methods have identities, and that members have owners.
`runStrictly` is the run that has no result where they do not, so it shows whether the
run relies on anything that is not there.
-/

namespace HookScript

/-! ## Selections from loaded models -/

theorem ClassView.findField_ne_missing (view : ClassView) (selector : Text) (what : Missing) :
    view.findField selector ≠ .error (.missing what) := by
  intro failed
  unfold findField at failed
  split at failed
  · cases failed
  · cases failed
  · cases failed

theorem JavaClass.WellFormed.findMethod_ne_missing {cls : JavaClass} (wellFormed : cls.WellFormed)
    (selector : Text) (what : Missing) :
    cls.view.findMethod selector ≠ .error (.missing what) := by
  intro failed
  have first : ClassView.methodWithIdentity? selector cls.view.methods = _ :=
    methodWithIdentity?_map_member wellFormed.typed selector
  rw [ClassView.findMethod, first] at failed
  split at failed
  next missing => cases missing
  next => cases failed
  next =>
    split at failed
    · cases failed
    · cases failed
    · cases failed

namespace Model

variable {model : Model} {selectors : Selectors} {selection : Selection}

/-- Methods of a loaded model can be compared with any selector. -/
theorem WellFormed.resolve_ne_missing (wellFormed : model.WellFormed) (what : Missing) :
    model.resolve selectors ≠ .error (.missing what) := by
  intro failed
  unfold resolve Catalog.resolve at failed
  split at failed
  next => cases failed
  next =>
    split at failed
    next => cases failed
    next view found =>
      rcases exists_of_find? found with ⟨cls, listed, rfl⟩
      split at failed
      next =>
        rcases Outcome.bind_eq_error.mp failed with noMethod | ⟨_, _, impossible⟩
        · exact (wellFormed.classes cls listed).findMethod_ne_missing _ what noMethod
        · cases impossible
      next =>
        rcases Outcome.bind_eq_error.mp failed with noField | ⟨_, _, impossible⟩
        · exact cls.view.findField_ne_missing _ what noField
        · cases impossible
      next => cases failed

theorem WellFormed.exists_describe (wellFormed : model.WellFormed)
    (resolved : model.resolve selectors = .ok selection) :
    ∃ description, selection.describe = .ok description := by
  rcases wellFormed.exists_of_resolve resolved with
    ⟨cls, listed, rfl | ⟨method, declared, rfl⟩ | ⟨field, declared, rfl⟩⟩
  · exact ⟨_, rfl⟩
  · exact ⟨_, if_pos ((wellFormed.classes cls listed).typed method declared).hasIdentity⟩
  · exact ⟨_, rfl⟩

theorem WellFormed.exists_generate (wellFormed : model.WellFormed)
    (resolved : model.resolve selectors = .ok selection) :
    ∃ snippet, Snippet.generate selection = .ok snippet := by
  rcases wellFormed.exists_of_resolve resolved with
    ⟨cls, listed, rfl | ⟨method, declared, rfl⟩ | ⟨field, declared, rfl⟩⟩
  · exact ⟨_, JavaClass.generate_cls (wellFormed.classes cls listed).typed⟩
  · exact ⟨_, JavaClass.generate_method (wellFormed.classes cls listed).typed declared⟩
  · exact ⟨_, JavaClass.generate_field field⟩

theorem WellFormed.dumpAll_eq_ok (wellFormed : model.WellFormed) :
    JavaClass.dumpAll model.classes = .ok (model.classes.map JavaClass.toJson) := by
  apply if_pos
  rw [List.all_eq_true]
  intro cls listed
  rw [List.all_eq_true]
  intro method declared
  exact ((wellFormed.classes cls listed).typed method declared).hasIdentity

end Model

namespace CommandLine

/-! ## Strict runs -/

/-- A selection as a run shows it; a selection without a description has no result. -/
def describeStrictly (selection : Selection) (notices : List Notice) :
    Except Undescribed Result := do
  let description ← selection.describe
  return .success description.render notices

/-- What `select` comes to, if nothing is missing for it. -/
def selectStrictly (model : Model) (request : Request) (notices : List Notice) :
    Except Undescribed Result :=
  match request.className? with
  | none => .ok (.failure 2 UsageError.noClass.message notices)
  | some className =>
    match model.resolve ⟨className, request.method?, request.field?⟩ with
    | .error (.missing what) => .error (.missing what)
    | .error error => .ok (.failure 1 error.message notices)
    | .ok selection =>
      if request.stopAt? = some Phase.select.name then describeStrictly selection notices
      else .ok (generate .standard selection notices)

/-- A run that has no result if something is missing on the way, unless the generator
reports it. -/
def runStrictly (source : Text) (request : Request) : Except Undescribed Result :=
  match Model.parse source with
  | .error error => .ok (.failure 1 error.message [])
  | .ok model =>
    if request.stopAt? = some Phase.load.name then
      match JavaClass.dumpAll model.classes with
      | .error what => .error (.missing what)
      | .ok classes =>
        .ok (.success (Json.obj [("classes", .arr classes)]).render [loadedNotice model])
    else selectStrictly model request [loadedNotice model]

theorem describeStrictly_eq_ok {selection : Selection} {notices : List Notice}
    (described : ∃ description, selection.describe = .ok description) :
    describeStrictly selection notices = .ok (describe selection notices) := by
  rcases described with ⟨description, same⟩
  rw [describeStrictly, describe, same]
  rfl

theorem selectStrictly_eq_ok {model : Model} (wellFormed : model.WellFormed) (request : Request)
    (notices : List Notice) :
    selectStrictly model request notices = .ok (select .standard model request notices) := by
  unfold selectStrictly select
  cases request.className? with
  | none => rfl
  | some className =>
    dsimp only
    cases resolved : model.resolve ⟨className, request.method?, request.field?⟩ with
    | error error =>
      cases error with
      | missing what => exact absurd resolved (wellFormed.resolve_ne_missing what)
      | _ => rfl
    | ok selection =>
      dsimp only
      split
      · exact describeStrictly_eq_ok (wellFormed.exists_describe resolved)
      · rfl

/-- Nothing is ever missing for a run. -/
theorem runStrictly_eq_ok (source : Text) (request : Request) :
    runStrictly source request = .ok (runPipeline .standard source request) := by
  unfold runStrictly runPipeline
  cases loaded : Model.parse source with
  | error error => rfl
  | ok model =>
    have wellFormed := Model.wellFormed_of_parse loaded
    dsimp only
    rw [wellFormed.dumpAll_eq_ok, selectStrictly_eq_ok wellFormed]
    split
    · rfl
    · rfl

/-! ## Agreement -/

/-- What runs that stop at different phases have in common.  A run that cannot load fails
wherever it stops.  A run goes through to the end exactly if it goes through to the
selection, and fails as it fails there. -/
structure PhasesAgree (run : Option Text → Result) : Prop where
  load : (run (some Phase.load.name)).exitCode = 1 →
    (run (some Phase.load.name)).output = [] ∧
      run (some Phase.select.name) = run (some Phase.load.name) ∧
      run none = run (some Phase.load.name)
  select : (run none).exitCode = 0 ↔ (run (some Phase.select.name)).exitCode = 0
  failure : (run none).exitCode ≠ 0 →
    (run none).output = [] ∧ run (some Phase.select.name) = run none

namespace PhasesAgree

variable {run : Option Text → Result}

theorem of_failure (select : run (some Phase.select.name) = run none)
    (nothing : (run none).output = [])
    (load : (run (some Phase.load.name)).exitCode = 1 → run (some Phase.load.name) = run none) :
    PhasesAgree run := by
  refine ⟨?_, ?_, fun _ => ⟨nothing, select⟩⟩
  · intro fails
    rw [select, load fails]
    exact ⟨nothing, rfl, rfl⟩
  · rw [select]

theorem of_success (load : (run (some Phase.load.name)).exitCode = 0)
    (select : (run (some Phase.select.name)).exitCode = 0) (whole : (run none).exitCode = 0) :
    PhasesAgree run := by
  refine ⟨?_, ?_, fun fails => absurd whole fails⟩
  · intro fails
    rw [load] at fails
    cases fails
  · rw [select, whole]

end PhasesAgree

section Results

variable {generator : Generator} {model : Model} {className : Text}
  {method? field? stopAt? : Option Text} {selection : Selection} {notices : List Notice}

theorem select_of_error {error : ResolveError}
    (refused : model.resolve ⟨className, method?, field?⟩ = .error error) :
    select generator model ⟨some className, method?, field?, stopAt?⟩ notices =
      .failure 1 error.message notices := by
  rw [select]
  dsimp only
  rw [refused]

theorem select_of_ok (resolved : model.resolve ⟨className, method?, field?⟩ = .ok selection) :
    select generator model ⟨some className, method?, field?, stopAt?⟩ notices =
      if stopAt? = some Phase.select.name then describe selection notices
      else generate generator selection notices := by
  rw [select]
  dsimp only
  rw [resolved]

theorem exitCode_describe (described : ∃ description, selection.describe = .ok description) :
    (describe selection notices).exitCode = 0 := by
  rcases described with ⟨description, same⟩
  rw [describe, same]
  rfl

theorem exitCode_generate (generated : ∃ snippet, Snippet.generate selection = .ok snippet) :
    (generate .standard selection notices).exitCode = 0 := by
  rcases generated with ⟨snippet, same⟩
  rw [generate, Generator.standard, same]
  rfl

theorem runPipeline_of_error {source : Text} {error : LoadError}
    (fails : Model.parse source = .error error) (request : Request) :
    runPipeline generator source request = .failure 1 error.message [] := by
  rw [runPipeline, fails]

theorem runPipeline_of_ok {source : Text} {request : Request}
    (loaded : Model.parse source = .ok model) :
    runPipeline generator source request =
      if request.stopAt? = some Phase.load.name then
        .success model.toJson.render [loadedNotice model]
      else select generator model request [loadedNotice model] := by
  rw [runPipeline, loaded]

end Results

theorem phasesAgree_runPipeline (source className : Text) (method? field? : Option Text) :
    PhasesAgree fun stopAt? =>
      runPipeline .standard source ⟨some className, method?, field?, stopAt?⟩ := by
  cases loaded : Model.parse source with
  | error error =>
    have fails : ∀ request, runPipeline .standard source request =
        .failure 1 error.message [] := runPipeline_of_error loaded
    apply PhasesAgree.of_failure
    · rw [fails, fails]
    · rw [fails]
      rfl
    · intro _
      rw [fails, fails]
  | ok model =>
    have wellFormed := Model.wellFormed_of_parse loaded
    have load : (runPipeline .standard source
        ⟨some className, method?, field?, some Phase.load.name⟩).exitCode = 0 := by
      rw [runPipeline_of_ok loaded, if_pos rfl]
      rfl
    have later : ∀ stopAt? : Option Text, stopAt? ≠ some Phase.load.name →
        runPipeline .standard source ⟨some className, method?, field?, stopAt?⟩ =
          select .standard model ⟨some className, method?, field?, stopAt?⟩ [loadedNotice model] :=
      fun _ goesOn => (runPipeline_of_ok loaded).trans (if_neg goesOn)
    have atSelect := later (some Phase.select.name) (by decide)
    have atEnd := later none nofun
    cases resolved : model.resolve ⟨className, method?, field?⟩ with
    | error error =>
      rw [select_of_error resolved] at atSelect atEnd
      apply PhasesAgree.of_failure
      · rw [atSelect, atEnd]
      · rw [atEnd]
        rfl
      · intro impossible
        rw [load] at impossible
        cases impossible
    | ok selection =>
      rw [select_of_ok resolved] at atSelect atEnd
      apply PhasesAgree.of_success load
      · rw [atSelect, if_pos rfl]
        exact exitCode_describe (wellFormed.exists_describe resolved)
      · rw [atEnd, if_neg nofun]
        exact exitCode_generate (wellFormed.exists_generate resolved)

/-- For every text, class and selectors, nothing is missing for a run wherever it stops:
every method that is read has an identity, and the run has the result of the strict one.
The phases agree.  And whatever is selected from a loaded model has a snippet. -/
theorem phases_agree (source className : Text) (method? field? : Option Text) :
    (∀ path entry method, Loading.method path entry = .ok method → method.hasIdentity = true) ∧
      (∀ stopAt?, runStrictly source ⟨some className, method?, field?, stopAt?⟩ =
        .ok (runPipeline .standard source ⟨some className, method?, field?, stopAt?⟩)) ∧
      (PhasesAgree fun stopAt? =>
        runPipeline .standard source ⟨some className, method?, field?, stopAt?⟩) ∧
      ∀ document model, Model.ofJson document = .ok model → ∀ selectors selection,
        model.resolve selectors = .ok selection →
          ∃ snippet, Snippet.generate selection = .ok snippet := by
  refine ⟨?_, fun _ => runStrictly_eq_ok source _, phasesAgree_runPipeline .., ?_⟩
  · intro path entry method read
    exact (Loading.method_eq_ok.mp read).2.typed.hasIdentity
  · intro document model loaded selectors selection resolved
    exact (Model.ofJson_eq_ok.mp loaded).2.exists_generate resolved

/-- A field that is there is found and written, and one that is not there is missed at
every phase. -/
theorem phases_agree_field :
    (runPipeline .standard (fieldSource "int") ⟨some "a", none, some "x", none⟩).exitCode = 0 ∧
      (runPipeline .standard (fieldSource "int") ⟨some "a", none, some "y", none⟩).exitCode = 1 ∧
      runPipeline .standard (fieldSource "int") ⟨some "a", none, some "y", some Phase.select.name⟩ =
        runPipeline .standard (fieldSource "int") ⟨some "a", none, some "y", none⟩ := by
  have selected : (runPipeline .standard (fieldSource "int")
      ⟨some "a", none, some "x", some Phase.select.name⟩).exitCode = 0 := by decide +kernel
  have missed : (runPipeline .standard (fieldSource "int")
      ⟨some "a", none, some "y", none⟩).exitCode = 1 := by decide +kernel
  have present := (phases_agree (fieldSource "int") "a" none (some "x")).2.2.1
  have absent := (phases_agree (fieldSource "int") "a" none (some "y")).2.2.1
  refine ⟨present.select.mpr selected, missed, (absent.failure ?_).2⟩
  rw [missed]
  exact Nat.one_ne_zero

end CommandLine

end HookScript
