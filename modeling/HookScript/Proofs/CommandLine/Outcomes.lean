import HookScript.CommandLine.Run
import HookScript.Proofs.CommandLine.Notices
import HookScript.Proofs.CommandLine.Phases
import HookScript.Proofs.Json.Encoding
import HookScript.Proofs.Snippet.Lines

/-!
# How runs end

Runs may fail in many places: in the arguments, the input, the document, the selection,
the clipboard and the file for the output.  `Ends` lists the ways in which a run may
end, each with what it comes from, and `ends_run` follows a run through its stages to
one of them.  What a run may be relied on for is then read off the list.

In three places a run does not fail but breaks off: at a name that cannot be opened, for
the input or for the output, and at a document beyond the limits of the reader.  These are
all (`Breaks`), and a run that does not break off keeps its contract.

A file is only written once everything else went well, so the output must not fail to
be encoded.  Documents are written in ASCII, and snippets hold nothing but what lines of
scripts may hold, so it never does.
-/

namespace HookScript

namespace Model

variable {model : Model} {selectors : Selectors} {selection : Selection}

/-- Snippets of what is selected from a loaded model can be encoded. -/
theorem WellFormed.scalar_generate (wellFormed : model.WellFormed) {snippet : Text}
    (resolved : model.resolve selectors = .ok selection)
    (generated : Snippet.generate selection = .ok snippet) : snippet.Scalar := by
  rcases wellFormed.exists_of_resolve resolved with
    ⟨cls, listed, rfl | ⟨method, declared, rfl⟩ | ⟨field, declared, rfl⟩⟩
  · have wellClass := wellFormed.classes cls listed
    rw [JavaClass.generate_cls wellClass.typed, JavaClass.snippet_eq] at generated
    cases generated
    exact (Text.presentable_of_lines wellClass.inline_lines).scalar
  · have wellClass := wellFormed.classes cls listed
    rw [JavaClass.generate_method wellClass.typed declared, JavaClass.hookBlock,
      Hook.text_eq] at generated
    cases generated
    exact (Text.presentable_of_lines
      ((wellClass.hook declared).inline_lines wellClass.inline_declaration)).scalar
  · have wellClass := wellFormed.classes cls listed
    rw [JavaClass.generate_field, JavaClass.probeBlock, Probe.text_eq] at generated
    cases generated
    exact (Text.presentable_of_lines
      ((wellClass.probe declared).inline_lines wellClass.inline_declaration)).scalar

end Model

namespace CommandLine

/-! ## Results of the pipeline -/

/-- A result that is a failure with exit code 1, or an output that can be encoded. -/
inductive Result.Clean : Result → Prop where
  | failure (message : Text) (notices : List Notice) : Clean (.failure 1 message notices)
  | success {output : Text} (notices : List Notice) (scalar : output.Scalar) :
    Clean (.success output notices)

theorem clean_describe {selection : Selection} (notices : List Notice) :
    (describe selection notices).Clean := by
  unfold describe
  split
  · exact .failure _ _
  · exact .success _ (Json.scalar_render _)

theorem clean_select {model : Model} (wellFormed : model.WellFormed) {request : Request}
    (asks : request.className?.isSome = true) (notices : List Notice) :
    (select .standard model request notices).Clean := by
  obtain ⟨className?, method?, field?, stopAt?⟩ := request
  rcases Option.isSome_iff_exists.mp asks with ⟨className, rfl⟩
  cases resolved : model.resolve ⟨className, method?, field?⟩ with
  | error error =>
    rw [select_of_error resolved]
    exact .failure _ _
  | ok selection =>
    rw [select_of_ok resolved]
    split
    · exact clean_describe notices
    · rcases wellFormed.exists_generate resolved with ⟨snippet, generated⟩
      rw [generate, Generator.standard, generated]
      exact .success _ (wellFormed.scalar_generate resolved generated)

theorem clean_runPipeline (source : Text) (request : Request)
    (asks : request.className?.isSome = true ∨ request.stopAt? = some Phase.load.name) :
    (runPipeline .standard source request).Clean := by
  cases loaded : Model.parse source with
  | error error =>
    rw [runPipeline_of_error loaded]
    exact .failure _ _
  | ok model =>
    rw [runPipeline_of_ok loaded]
    split
    next => exact .success _ (Json.scalar_render _)
    next goesOn =>
      exact clean_select (Model.wellFormed_of_parse loaded) (asks.resolve_right goesOn) _

/-! ## How a run ends -/

/-- Options that do not ask for help name a class, or ask only for loading. -/
theorem Options.asks_of_parse {arguments : List Text} {options : Options}
    (parsed : Options.parse arguments = .ok options) (noHelp : options.showHelp = false) :
    options.className?.isSome = true ∨ options.stopAt? = some Phase.load.name := by
  rcases Outcome.bind_eq_ok.mp parsed with ⟨given, _, checked⟩
  split at checked
  next asked =>
    cases checked
    rw [noHelp] at asked
    cases asked
  next =>
    unfold check at checked
    split at checked
    next => cases checked
    next =>
      split at checked
      next => cases checked
      next =>
        split at checked
        next => cases checked
        next unlike =>
          cases checked
          rw [Bool.and_eq_true, decide_eq_true_eq, Option.isNone_iff_eq_none] at unlike
          cases named : options.className? with
          | some className => exact Or.inl rfl
          | none => exact Or.inr (Decidable.not_not.mp fun goesOn => unlike ⟨named, goesOn⟩)

def Options.copies (options : Options) : Bool := options.copy && options.stopAt?.isNone

section Ends

/-- The input of a run, decoded from the bytes of the file that is named, or else of standard
input. -/
inductive Surroundings.Gives (surroundings : Surroundings) : Option Text → Text → Prop where
  | standardInput {source : Text}
      (decoded : Text.ofUtf8? surroundings.standardInput = some source) :
    Gives surroundings none source
  | file {name source : Text} {bytes : ByteArray} (openable : Openable name)
      (there : surroundings.fileBytes? name = some bytes)
      (decoded : Text.ofUtf8? bytes = some source) : Gives surroundings (some name) source

/-- A request on the text of a document that is within the limits. -/
structure Surroundings.Copes (surroundings : Surroundings) (source : Text) (request : Request) :
    Prop where
  integers : ¬Json.Overlong surroundings.longestInteger source
  stack : surroundings.stackFault? source request = none

variable (surroundings : Surroundings) (arguments : List Text)

/-- A run that reads an input, with the options that it goes by. -/
structure Reads (options : Options) (source : Text) : Prop where
  parsed : Options.parse arguments = .ok options
  noHelp : options.showHelp = false
  given : surroundings.Gives options.inputFile? source

/-- A run with arguments that are not understood, or with nothing in its input. -/
inductive Misused : Prop where
  | usage {error : UsageError} (refused : Options.parse arguments = .error error)
  | noInput {options : Options} {source : Text} (reads : Reads surroundings arguments options source)
      (blank : source.isBlank = true)

/-- A run for which the pipeline has an output. -/
inductive Produces (options : Options) (output : Text) : Prop where
  | output {source : Text} {notices : List Notice}
      (reads : Reads surroundings arguments options source) (visible : source.isBlank = false)
      (copes : surroundings.Copes source options.request)
      (succeeds : runPipeline surroundings.generator source options.request =
        .success output notices)

/-- A run that copies its output, but cannot write it to a file. -/
structure CopiesInVain (options : Options) (output : Text) : Prop where
  produces : Produces surroundings arguments options output
  copies : options.copies = true
  copied : surroundings.clipboardFault? = none
  notWritten : ∃ name, options.outputFile? = some name ∧ surroundings.canWrite name = false

/-- A run that is to open a name that cannot be opened, or to read a document beyond the
limits. -/
inductive Breaks : Prop where
  | input {options : Options} {name : Text} (parsed : Options.parse arguments = .ok options)
      (noHelp : options.showHelp = false) (file : options.inputFile? = some name)
      (closed : ¬Openable name)
  | document {options : Options} {source : Text}
      (reads : Reads surroundings arguments options source) (visible : source.isBlank = false)
      (beyond : ¬surroundings.Copes source options.request)
  | output {options : Options} {output name : Text}
      (produces : Produces surroundings arguments options output)
      (works : options.copies = true → surroundings.clipboardFault? = none)
      (file : options.outputFile? = some name) (closed : ¬Openable name)

/-- A run with an output that can be brought to where it is asked for. -/
structure Deliverable (options : Options) (output : Text) : Prop where
  produces : Produces surroundings arguments options output
  copied : options.copies = true → surroundings.clipboardFault? = none
  writable : ∀ name ∈ options.outputFile?, surroundings.canWrite name = true

/-- An outcome that brings an output to where it is asked for, and nothing else. -/
structure Outcome.Delivers (outcome : Outcome) (options : Options) (output : Text) : Prop where
  exitCode : outcome.exitCode = 0
  copied : outcome.copied = if options.copies then [output] else []
  placed : match options.outputFile? with
    | none => outcome.standardOutput = output ++ "\n" ∧ outcome.written? = none
    | some name => outcome.standardOutput = [] ∧ outcome.written? = some (name, output ++ "\n")
  whole : outcome.breakdown? = none

/-- The ways in which a run may end. -/
inductive Ends : Outcome → Prop where
  | help {options : Options} (parsed : Options.parse arguments = .ok options)
      (asked : options.showHelp = true) : Ends ⟨0, usage, [], [], none, none⟩
  | misused (message : Text) (misused : Misused surroundings arguments) :
      Ends (.failure 2 message [] [])
  | noOutput (message : Text) (notices : List Notice) (proper : ¬Misused surroundings arguments)
      (nothing : ∀ options output, ¬Produces surroundings arguments options output) :
      Ends (.failure 1 message notices [])
  | notCopied {options : Options} {output fault : Text} (message : Text) (notices : List Notice)
      (produces : Produces surroundings arguments options output)
      (copies : options.copies = true) (fails : surroundings.clipboardFault? = some fault) :
      Ends (.failure 1 message notices [])
  | notWritten {options : Options} {output name : Text} (message : Text) (notices : List Notice)
      (produces : Produces surroundings arguments options output)
      (works : options.copies = true → surroundings.clipboardFault? = none)
      (file : options.outputFile? = some name) (fails : surroundings.canWrite name = false) :
      Ends (.failure 1 message notices (if options.copies then [output] else []))
  | delivered {options : Options} {output : Text} {outcome : Outcome}
      (deliverable : Deliverable surroundings arguments options output)
      (delivers : outcome.Delivers options output) : Ends outcome
  | broken (breakdown : Breakdown) (notices : List Notice) (copied : List Text)
      (breaks : Breaks surroundings arguments) : Ends (.broken breakdown notices copied)

end Ends

section Stages

variable {surroundings : Surroundings} {arguments : List Text} {options other : Options}
  {source output : Text}

/-! ### Reading the input -/

theorem openable_of_bind {file? : Option Text} :
    file?.bind openFault? = none ↔ ∀ name ∈ file?, Openable name := by
  rw [Option.bind_eq_none_iff]
  exact forall₂_congr fun _ _ => openFault?_eq_none_iff

theorem readSource_eq_ok_iff {file? : Option Text} (openable : ∀ name ∈ file?, Openable name) :
    readSource surroundings file? = .ok source ↔ surroundings.Gives file? source := by
  unfold readSource
  cases file? with
  | none =>
    dsimp only
    constructor
    · intro read
      split at read
      next => cases read
      next decoded =>
        cases read
        exact .standardInput decoded
    · rintro ⟨decoded⟩
      rw [decoded]
  | some name =>
    dsimp only
    constructor
    · intro read
      split at read
      next => cases read
      next bytes there =>
        split at read
        next => cases read
        next decoded =>
          cases read
          exact .file (openable name rfl) there decoded
    · intro given
      cases given with
      | file _ there decoded =>
        rw [there]
        dsimp only
        rw [decoded]

theorem documentFault?_of_overlong {request : Request} {count : Nat}
    (overlong : Json.overlong? surroundings.longestInteger source = some count) :
    surroundings.documentFault? source request =
      some (.overlongInteger surroundings.longestInteger count) := by
  rw [Surroundings.documentFault?, overlong]

theorem documentFault?_eq_none_iff {request : Request} :
    surroundings.documentFault? source request = none ↔ surroundings.Copes source request := by
  unfold Surroundings.documentFault?
  cases overlong : Json.overlong? surroundings.longestInteger source with
  | some count =>
    have isOverlong : Json.Overlong surroundings.longestInteger source :=
      Json.isSome_overlong?_iff.mp (overlong ▸ rfl)
    exact ⟨nofun, fun copes => absurd isOverlong copes.integers⟩
  | none =>
    have short : ¬Json.Overlong surroundings.longestInteger source := by
      rw [← Json.isSome_overlong?_iff, overlong]
      exact nofun
    dsimp only
    rw [Option.map_eq_none_iff]
    exact ⟨fun stack => ⟨short, stack⟩, fun copes => copes.stack⟩

theorem Surroundings.Gives.eq {file? : Option Text} {again : Text}
    (first : surroundings.Gives file? source) (second : surroundings.Gives file? again) :
    again = source := by
  cases first with
  | standardInput decoded =>
    cases second with
    | standardInput decodedAgain => exact Option.some.inj (decodedAgain.symm.trans decoded)
  | file _ there decoded =>
    cases second with
    | file _ thereAgain decodedAgain =>
      cases thereAgain.symm.trans there
      exact Option.some.inj (decodedAgain.symm.trans decoded)

theorem Surroundings.Gives.openable {file? : Option Text} (given : surroundings.Gives file? source) :
    ∀ name ∈ file?, Openable name := by
  cases given with
  | standardInput => exact nofun
  | file openable _ _ =>
    intro name named
    cases named
    exact openable

theorem Reads.eq {again : Text} (first : Reads surroundings arguments options source)
    (second : Reads surroundings arguments other again) : other = options ∧ again = source := by
  have same := Except.ok.inj (second.parsed.symm.trans first.parsed)
  exact ⟨same, first.given.eq (same ▸ second.given)⟩

theorem Reads.not_misused (reads : Reads surroundings arguments options source)
    (visible : source.isBlank = false) : ¬Misused surroundings arguments := by
  intro misused
  cases misused with
  | usage refused => cases refused.symm.trans reads.parsed
  | noInput again blank =>
    rw [(reads.eq again).2, visible] at blank
    cases blank

theorem Produces.not_misused (produces : Produces surroundings arguments options output) :
    ¬Misused surroundings arguments := by
  cases produces with
  | output reads visible => exact reads.not_misused visible

theorem Produces.eq {again : Text} (first : Produces surroundings arguments options output)
    (second : Produces surroundings arguments other again) : other = options ∧ again = output := by
  cases first with
  | output reads _ _ succeeds =>
    cases second with
    | output readsAgain _ _ succeedsAgain =>
      rcases reads.eq readsAgain with ⟨rfl, rfl⟩
      rw [succeeds] at succeedsAgain
      cases succeedsAgain
      exact ⟨rfl, rfl⟩

/-! ### Following a run -/

theorem ends_writeOutput (produces : Produces surroundings arguments options output)
    (works : options.copies = true → surroundings.clipboardFault? = none) (notices : List Notice) :
    Ends surroundings arguments (writeOutput surroundings options.outputFile? output notices
      (if options.copies then [output] else [])) := by
  unfold writeOutput
  split
  next file =>
    apply Ends.delivered
    · refine ⟨produces, works, ?_⟩
      rw [file]
      exact nofun
    · refine ⟨rfl, rfl, ?_, rfl⟩
      rw [file]
      exact ⟨rfl, rfl⟩
  next name file =>
    split
    next breakdown fault =>
      have closed : ¬Openable name := by
        rw [← openFault?_eq_none_iff, fault]
        exact nofun
      exact .broken _ _ _ (.output produces works file closed)
    next =>
      split
      next writable =>
        apply Ends.delivered
        · refine ⟨produces, works, ?_⟩
          rw [file]
          intro other same
          cases same
          exact writable
        · refine ⟨rfl, rfl, ?_, rfl⟩
          rw [file]
          exact ⟨rfl, rfl⟩
      next fails => exact .notWritten _ _ produces works file (Bool.eq_false_iff.mpr fails)

theorem ends_deliver (produces : Produces surroundings arguments options output)
    (notices : List Notice) :
    Ends surroundings arguments (deliver surroundings options output notices) := by
  unfold deliver
  cases copies : options.copy && options.stopAt?.isNone with
  | false =>
    have written := ends_writeOutput produces (fun copied => nomatch copies.symm.trans copied) notices
    rw [Options.copies, copies] at written
    exact written
  | true =>
    rw [if_pos rfl]
    cases fault : surroundings.clipboardFault? with
    | some fault => exact .notCopied _ _ produces copies ‹_›
    | none =>
      have written := ends_writeOutput produces (fun _ => fault) notices
      rw [Options.copies, copies] at written
      exact written

theorem ends_conclude {result : Result} (reads : Reads surroundings arguments options source)
    (visible : source.isBlank = false) (copes : surroundings.Copes source options.request)
    (runs : runPipeline surroundings.generator source options.request = result)
    (clean : result.Clean) :
    Ends surroundings arguments (conclude surroundings options result) := by
  cases clean with
  | success notices _ => exact ends_deliver (.output reads visible copes runs) notices
  | failure message notices =>
    apply Ends.noOutput message notices (reads.not_misused visible)
    intro other output produces
    cases produces with
    | output again _ _ succeeds =>
      rcases reads.eq again with ⟨rfl, rfl⟩
      rw [runs] at succeeds
      cases succeeds

theorem ends_runOn (standard : surroundings.generator = .standard)
    (reads : Reads surroundings arguments options source) :
    Ends surroundings arguments (runOn surroundings options source) := by
  unfold runOn
  split
  next blank => exact .misused _ (.noInput reads blank)
  next visible =>
    have visible := Bool.eq_false_iff.mpr visible
    split
    next breakdown fault =>
      have beyond : ¬surroundings.Copes source options.request := by
        rw [← documentFault?_eq_none_iff, fault]
        exact nofun
      exact .broken _ _ _ (.document reads visible beyond)
    next within =>
      have clean := clean_runPipeline source options.request
        (Options.asks_of_parse reads.parsed reads.noHelp)
      rw [← standard] at clean
      exact ends_conclude reads visible (documentFault?_eq_none_iff.mp within) rfl clean

/-- Arguments that are understood, but do not make a run read an input, are no misuse and
bring no output. -/
theorem proper_of_not_reads (parsed : Options.parse arguments = .ok options)
    (noInput : ∀ source, ¬Reads surroundings arguments options source) :
    ¬Misused surroundings arguments ∧
      ∀ other output, ¬Produces surroundings arguments other output := by
  have unread : ∀ other source, ¬Reads surroundings arguments other source := by
    intro other source reads
    have same := Except.ok.inj (reads.parsed.symm.trans parsed)
    exact noInput source (same ▸ reads)
  constructor
  · intro misused
    cases misused with
    | usage refused => cases refused.symm.trans parsed
    | noInput reads _ => exact unread _ _ reads
  · intro other output produces
    cases produces with
    | output reads => exact unread _ _ reads

theorem ends_runWith (standard : surroundings.generator = .standard)
    (parsed : Options.parse arguments = .ok options) (noHelp : options.showHelp = false) :
    Ends surroundings arguments (runWith surroundings options) := by
  unfold runWith
  split
  next breakdown fault =>
    obtain ⟨name, file, fault⟩ := Option.bind_eq_some_iff.mp fault
    have closed : ¬Openable name := by
      rw [← openFault?_eq_none_iff, fault]
      exact nofun
    exact .broken _ _ _ (.input parsed noHelp file closed)
  next openable =>
    have readable : ∀ source, readSource surroundings options.inputFile? = .ok source ↔
        surroundings.Gives options.inputFile? source :=
      fun _ => readSource_eq_ok_iff (openable_of_bind.mp openable)
    cases read : readSource surroundings options.inputFile? with
    | error message =>
      have unread : ∀ source, ¬Reads surroundings arguments options source :=
        fun source reads => nomatch read.symm.trans ((readable source).mpr reads.given)
      rcases proper_of_not_reads parsed unread with ⟨proper, nothing⟩
      exact .noOutput message [] proper nothing
    | ok source => exact ends_runOn standard ⟨parsed, noHelp, (readable source).mp read⟩

theorem ends_run (standard : surroundings.generator = .standard) :
    Ends surroundings arguments (run surroundings arguments) := by
  unfold run
  cases parsed : Options.parse arguments with
  | error error => exact .misused _ (.usage parsed)
  | ok options =>
    dsimp only
    split
    next asked => exact .help parsed asked
    next noHelp => exact ends_runWith standard parsed (Bool.eq_false_iff.mpr noHelp)

/-! ### Breaking off -/

/-- A run does not break off if it reads a document within the limits, and its output goes to
a file that can be opened. -/
theorem Reads.not_breaks (reads : Reads surroundings arguments options source)
    (copes : surroundings.Copes source options.request)
    (openable : ∀ name ∈ options.outputFile?, Openable name) : ¬Breaks surroundings arguments := by
  intro breaks
  cases breaks with
  | input parsed _ file closed =>
    cases parsed.symm.trans reads.parsed
    exact closed (reads.given.openable _ file)
  | document again _ beyond =>
    rcases reads.eq again with ⟨rfl, rfl⟩
    exact beyond copes
  | output produces _ file closed =>
    cases produces with
    | output again =>
      rcases reads.eq again with ⟨rfl, rfl⟩
      exact closed (openable _ file)

theorem run_of_options (parsed : Options.parse arguments = .ok options)
    (noHelp : options.showHelp = false) : run surroundings arguments = runWith surroundings options := by
  rw [run, parsed]
  dsimp only
  rw [noHelp]
  rfl

theorem run_of_reads (reads : Reads surroundings arguments options source) :
    run surroundings arguments = runOn surroundings options source := by
  have openable := reads.given.openable
  rw [run_of_options reads.parsed reads.noHelp, runWith, openable_of_bind.mpr openable,
    (readSource_eq_ok_iff openable).mpr reads.given]

theorem run_of_produces (produces : Produces surroundings arguments options output) :
    ∃ notices, run surroundings arguments = deliver surroundings options output notices := by
  cases produces with
  | @output source notices reads visible copes succeeds =>
    rw [run_of_reads reads, runOn, visible, documentFault?_eq_none_iff.mpr copes, succeeds]
    exact ⟨notices, rfl⟩

theorem Breaks.breakdown (breaks : Breaks surroundings arguments) :
    (run surroundings arguments).breakdown? ≠ none := by
  cases breaks with
  | input parsed noHelp file closed =>
    rw [← openFault?_eq_none_iff] at closed
    obtain ⟨breakdown, fault⟩ := Option.ne_none_iff_exists'.mp closed
    rw [run_of_options parsed noHelp, runWith, file, Option.bind_some, fault]
    exact nofun
  | document reads visible beyond =>
    rw [← documentFault?_eq_none_iff] at beyond
    obtain ⟨breakdown, fault⟩ := Option.ne_none_iff_exists'.mp beyond
    rw [run_of_reads reads, runOn, visible, fault]
    exact nofun
  | @output options output name produces works file closed =>
    rw [← openFault?_eq_none_iff] at closed
    obtain ⟨breakdown, fault⟩ := Option.ne_none_iff_exists'.mp closed
    have writes (notices : List Notice) (copied : List Text) :
        writeOutput surroundings options.outputFile? output notices copied =
          .broken breakdown notices copied := by
      rw [file]
      unfold writeOutput
      dsimp only
      rw [fault]
    obtain ⟨notices, runs⟩ := run_of_produces produces
    rw [runs, deliver]
    split
    next copies =>
      rw [works copies]
      dsimp only
      rw [writes]
      exact nofun
    next =>
      rw [writes]
      exact nofun

end Stages

end CommandLine

end HookScript
