import HookScript.CommandLine.Notice
import HookScript.Json.Writer
import HookScript.Program.Dump
import HookScript.Program.Loading
import HookScript.Program.Resolution
import HookScript.Snippet.Generation

/-!
# From a document to a snippet

A run loads a model, selects an element of it, and generates the snippet.  It
may stop early and show the model or the selection instead.
-/

namespace HookScript.CommandLine

/-- What turns selections into snippets, with what it reports on the way.  A
failure comes with its wording. -/
abbrev Generator := Selection → List Notice × Except Text Text

namespace Generator

/-- Reports every initialiser that a class snippet leaves out. -/
def skipNotices : Selection → List Notice
  | .cls (some view) =>
    List.replicate view.staticInitializers
      (.record .debug .generator ("skipping static initializer of " ++ view.rawName) false)
  | _ => []

/-- The generator of snippets. -/
def standard : Generator := fun selection =>
  (skipNotices selection, (Snippet.generate selection).mapError Snippet.Failure.message)

/-- A generator that is out of order. -/
def broken (message : Text) : Generator := fun _ => ([], .error message)

end Generator

/-- What a run is asked for. -/
structure Request where
  className? : Option Text
  method? : Option Text
  field? : Option Text
  stopAt? : Option Text
deriving DecidableEq

/-- The end of a run, with everything that it reported.  The output of a failed
run is empty. -/
structure Result where
  exitCode : Nat
  output : Text
  notices : List Notice
deriving DecidableEq

namespace Result

/-- A run that went well. -/
def success (output : Text) (notices : List Notice) : Result := ⟨0, output, notices⟩

/-- A run that failed with an exit code, after some notices. -/
def failure (exitCode : Nat) (message : Text) (notices : List Notice) : Result :=
  ⟨exitCode, [], notices ++ [.failure message]⟩

end Result

def generate (generator : Generator) (selection : Selection) (notices : List Notice) : Result :=
  match generator selection with
  | (more, .error message) =>
    .failure 1 message (notices ++ more ++
      [.record .error .commandLine "Failed to generate Frida code snippet" true])
  | (more, .ok snippet) =>
    .success snippet (notices ++ more ++
      [.record .info .commandLine ("Frida snippet:\n" ++ snippet) false])

def describe (selection : Selection) (notices : List Notice) : Result :=
  match selection.describe with
  | .error error => .failure 1 error.message notices
  | .ok document => .success document.render notices

/-- Selects from a model, then describes the selection or generates its
snippet. -/
def select (generator : Generator) (model : Model) (request : Request) (notices : List Notice) :
    Result :=
  match request.className? with
  | none => .failure 2 UsageError.noClass.message notices
  | some className =>
    match model.resolve ⟨className, request.method?, request.field?⟩ with
    | .error error => .failure 1 error.message notices
    | .ok selection =>
      if request.stopAt? = some Phase.select.name then describe selection notices
      else generate generator selection notices

def loadedNotice (model : Model) : Notice :=
  .record .debug .loader ("loaded " ++ Text.ofNat model.classes.length ++ " classes") false

/-- A run on the text of a document. -/
def runPipeline (generator : Generator) (source : Text) (request : Request) : Result :=
  match Model.parse source with
  | .error error => .failure 1 error.message []
  | .ok model =>
    if request.stopAt? = some Phase.load.name then
      .success model.toJson.render [loadedNotice model]
    else select generator model request [loadedNotice model]

end HookScript.CommandLine
