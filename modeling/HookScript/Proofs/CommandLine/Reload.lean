import HookScript.CommandLine.Pipeline
import HookScript.Proofs.Program.Dump
import HookScript.Proofs.Program.PlainDump

/-!
# Loading what a run shows of its model

A run that stops after loading shows its model as a document.  That document can be
loaded in turn, and whether this gives the same model depends on the types alone.
-/

namespace HookScript

/-- Loading a text is reading it as a document and loading that. -/
theorem Model.parse_eq_ok {source : Text} {model : Model} :
    Model.parse source = .ok model ↔
      ∃ document, Json.parse source = .ok document ∧ Model.ofJson document = .ok model := by
  rw [Model.parse]
  cases read : Json.parse source with
  | ok document =>
    constructor
    · intro loaded
      exact ⟨document, rfl, loaded⟩
    · intro parts
      rcases parts with ⟨same, found, loaded⟩
      cases found
      exact loaded
  | error fault =>
    constructor
    · intro impossible
      cases impossible
    · intro parts
      rcases parts with ⟨document, impossible, _⟩
      cases impossible

theorem Model.wellFormed_of_parse {source : Text} {model : Model}
    (loaded : Model.parse source = .ok model) : model.WellFormed := by
  rcases Model.parse_eq_ok.mp loaded with ⟨document, _, ofDocument⟩
  exact (Model.ofJson_eq_ok.mp ofDocument).2

/-- The dump of a model that was loaded from bytes is read back as a document. -/
theorem Model.parse_render_toJson {source : Text} {model : Model} (scalar : source.Scalar)
    (loaded : Model.parse source = .ok model) :
    Json.parse model.toJson.render = .ok model.toJson := by
  rcases Model.parse_eq_ok.mp loaded with ⟨document, read, loaded⟩
  rcases Model.ofJson_eq_ok.mp loaded with ⟨describes, wellFormed⟩
  have joined := Json.joined_of_describesClasses (Json.joined_of_parse scalar read) describes
  exact Json.parse_render (Model.plain_toJson wellFormed joined)

/-- Well-formed models with the same classes are the same. -/
theorem Model.WellFormed.eq_of_classes {first second : Model} (wellFirst : first.WellFormed)
    (wellSecond : second.WellFormed) (same : first.classes = second.classes) : first = second := by
  rw [wellFirst.eq_ofClasses, wellSecond.eq_ofClasses, same]

namespace CommandLine

/-- A run that stops after loading shows a dump of its model.  The dump loads as a
model with the same classes exactly if no type in it is ambiguous, that is if no
member has a type whose base is a class named like a primitive type, or that is
itself a class named by a descriptor letter.  A model with the same classes is the
same model, and has the same dump. -/
theorem loaded_dump_reloads {source : Text} {model : Model} {request : Request}
    (generator : Generator) (scalar : source.Scalar) (loaded : Model.parse source = .ok model)
    (stops : request.stopAt? = some Phase.load.name) :
    runPipeline generator source request = .success model.toJson.render [loadedNotice model] ∧
      ((∃ again, Model.parse model.toJson.render = .ok again ∧ again.classes = model.classes) ↔
        ∀ type ∈ model.types, ¬type.Ambiguous) ∧
      ∀ again, Model.parse model.toJson.render = .ok again → again.classes = model.classes →
        again = model ∧ runPipeline generator model.toJson.render request =
          .success model.toJson.render [loadedNotice model] := by
  have shown : ∀ {source : Text}, Model.parse source = .ok model →
      runPipeline generator source request =
        .success model.toJson.render [loadedNotice model] := by
    intro source loaded
    rw [runPipeline, loaded]
    exact if_pos stops
  have read := Model.parse_render_toJson scalar loaded
  rcases Model.parse_eq_ok.mp loaded with ⟨document, _, ofDocument⟩
  have wellFormed := (Model.ofJson_eq_ok.mp ofDocument).2
  have same : ∀ again, Model.parse model.toJson.render = .ok again →
      again.classes = model.classes → again = model := by
    intro again reloaded classes
    rcases Model.parse_eq_ok.mp reloaded with ⟨_, _, ofDump⟩
    exact (Model.ofJson_eq_ok.mp ofDump).2.eq_of_classes wellFormed classes
  have reloads : Model.parse model.toJson.render = .ok model ↔
      ∀ type ∈ model.types, ¬type.Ambiguous := by
    rw [Model.parse, read]
    exact Model.ofJson_toJson_iff wellFormed
  refine ⟨shown loaded, ?_, ?_⟩
  · rw [← reloads]
    constructor
    · intro parts
      rcases parts with ⟨again, reloaded, classes⟩
      rw [reloaded, same again reloaded classes]
    · intro reloaded
      exact ⟨model, reloaded, rfl⟩
  · intro again reloaded classes
    have whole := same again reloaded classes
    rw [whole] at reloaded
    exact ⟨whole, shown reloaded⟩

def fieldSource (type : Text) : Text :=
  "\x7b\"classes\": [\x7b\"name\": \"a\", \"fields\": [\x7b\"name\": \"x\", \"type\": \"" ++ type ++
    "\"\x7d]\x7d]\x7d"

theorem exists_model_of_types {source : Text} {types : List JavaType}
    (evaluated : (Model.parse source).toOption.map Model.types = some types) :
    ∃ model, Model.parse source = .ok model ∧ model.types = types := by
  cases read : Model.parse source with
  | error _ =>
    rw [read] at evaluated
    cases evaluated
  | ok model =>
    rw [read] at evaluated
    exact ⟨model, rfl, Option.some.inj evaluated⟩

/-- An array of numbers is reloaded, but an array of a class with the name of the
numbers is not. -/
theorem loaded_dump_reloads_arrays :
    (∃ model again, Model.parse (fieldSource "[I") = .ok model ∧
        Model.parse model.toJson.render = .ok again ∧ again.classes = model.classes) ∧
      ∃ model, Model.parse (fieldSource "[Lint;") = .ok model ∧
        ¬∃ again, Model.parse model.toJson.render = .ok again ∧ again.classes = model.classes := by
  have stops : (Request.mk none none none (some "load")).stopAt? = some Phase.load.name := rfl
  constructor
  · have scalar : (fieldSource "[I").Scalar := by decide
    have evaluated : (Model.parse (fieldSource "[I")).toOption.map Model.types =
        some [⟨.primitive .int, 1⟩] := by decide +kernel
    rcases exists_model_of_types evaluated with ⟨model, loaded, types⟩
    have clear : ∀ type ∈ model.types, ¬type.Ambiguous := by
      rw [types]
      decide
    rcases (loaded_dump_reloads .standard scalar loaded stops).2.1.mpr clear with
      ⟨again, reloaded, same⟩
    exact ⟨model, again, loaded, reloaded, same⟩
  · have scalar : (fieldSource "[Lint;").Scalar := by decide
    have evaluated : (Model.parse (fieldSource "[Lint;")).toOption.map Model.types =
        some [⟨.object "int", 1⟩] := by decide +kernel
    rcases exists_model_of_types evaluated with ⟨model, loaded, types⟩
    refine ⟨model, loaded, ?_⟩
    intro reloads
    have clear := (loaded_dump_reloads .standard scalar loaded stops).2.1.mp reloads
    rw [types] at clear
    exact absurd clear (by decide)

end CommandLine

end HookScript
