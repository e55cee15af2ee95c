import HookScript.CommandLine.Breakdown
import HookScript.CommandLine.Pipeline
import HookScript.Json.Overlong
import HookScript.Text.Blank
import HookScript.Text.Utf8

/-!
# Whole runs

A run reads its arguments, its input and nothing else, and ends in an `Outcome`.
The exit code is 0 if it went well, 2 if it was used in the wrong way or given
no input, and 1 if anything else went wrong.  A run that fails writes nothing
but notices.

Not every run comes to an end of its own.  It breaks off if it is to open a name that
cannot be a name, or if a document is beyond the limits of what reads it.  Nothing is
reported then, but a text may have been copied before.
-/

namespace HookScript.CommandLine

/-- What a run may find around it. -/
structure Surroundings where
  /-- The bytes of standard input. -/
  standardInput : ByteArray
  /-- The bytes of the files that can be read. -/
  fileBytes? : Text → Option ByteArray
  /-- Whether a file can be written. -/
  canWrite : Text → Bool
  /-- Why nothing can be copied to the clipboard; `none` if it works. -/
  clipboardFault? : Option Text
  generator : Generator
  /-- The most digits that an integer of a document may have. -/
  longestInteger : Nat := 4300
  /-- Why the stack does not suffice for a request on the text of a document; `none` if it
  does. -/
  stackFault? : Text → Request → Option Text := fun _ _ => none

/-- Everything that a run does. -/
structure Outcome where
  exitCode : Nat
  standardOutput : Text
  notices : List Notice
  /-- The texts copied to the clipboard. -/
  copied : List Text
  /-- The file that is written, with its contents. -/
  written? : Option (Text × Text)
  /-- What the run breaks off with, if it does.  The exit code is then not its own. -/
  breakdown? : Option Breakdown
deriving DecidableEq

namespace Outcome

/-- A run that fails, after some notices and perhaps after copying. -/
def failure (exitCode : Nat) (message : Text) (notices : List Notice) (copied : List Text) :
    Outcome :=
  ⟨exitCode, [], notices ++ [.failure message], copied, none, none⟩

/-- A run that breaks off. -/
def broken (breakdown : Breakdown) (notices : List Notice) (copied : List Text) : Outcome :=
  ⟨1, [], notices, copied, none, some breakdown⟩

end Outcome

/-- The text that a run works on, or why there is none. -/
def readSource (surroundings : Surroundings) (inputFile? : Option Text) : Except Text Text :=
  let bytes? := match inputFile? with
    | some name => surroundings.fileBytes? name
    | none => some surroundings.standardInput
  match bytes? with
  | none => .error ("cannot open '" ++ inputFile?.getD [] ++ "'")
  | some bytes =>
    match Text.ofUtf8? bytes with
    | none => .error "invalid utf-8 in input"
    | some source => .ok source

/-- Puts the output where it is asked for, followed by a newline. -/
def writeOutput (surroundings : Surroundings) (outputFile? : Option Text) (output : Text)
    (notices : List Notice) (copied : List Text) : Outcome :=
  match outputFile? with
  | none => ⟨0, output ++ "\n", notices, copied, none, none⟩
  | some name =>
    match openFault? name with
    | some breakdown => .broken breakdown notices copied
    | none =>
      if surroundings.canWrite name then
        ⟨0, [], notices, copied, some (name, output ++ "\n"), none⟩
      else .failure 1 ("cannot write '" ++ name ++ "'") notices copied

/-- Copies the output if that is asked for, then writes it. -/
def deliver (surroundings : Surroundings) (options : Options) (output : Text)
    (notices : List Notice) : Outcome :=
  if options.copy && options.stopAt?.isNone then
    match surroundings.clipboardFault? with
    | some fault =>
      .failure 1 ("cannot copy to clipboard: " ++ fault)
        (notices ++ [.record .error .commandLine "clipboard copy failed" true]) []
    | none => writeOutput surroundings options.outputFile? output notices [output]
  else writeOutput surroundings options.outputFile? output notices []

/-- What options ask of the pipeline. -/
def Options.request (options : Options) : Request :=
  ⟨options.className?, options.method?, options.field?, options.stopAt?⟩

/-- Why a request on the text of a document is beyond the limits. -/
def Surroundings.documentFault? (surroundings : Surroundings) (source : Text) (request : Request) :
    Option Breakdown :=
  match Json.overlong? surroundings.longestInteger source with
  | some count => some (.overlongInteger surroundings.longestInteger count)
  | none => (surroundings.stackFault? source request).map .stack

/-- What a run makes of the result of its pipeline. -/
def conclude (surroundings : Surroundings) (options : Options) (result : Result) : Outcome :=
  if result.exitCode = 0 then deliver surroundings options result.output result.notices
  else ⟨result.exitCode, [], result.notices, [], none, none⟩

/-- A run on the text of a document. -/
def runOn (surroundings : Surroundings) (options : Options) (source : Text) : Outcome :=
  if source.isBlank then .failure 2 "no input provided" [] []
  else
    match surroundings.documentFault? source options.request with
    | some breakdown => .broken breakdown [] []
    | none =>
      conclude surroundings options (runPipeline surroundings.generator source options.request)

/-- A run with options that do not ask for help. -/
def runWith (surroundings : Surroundings) (options : Options) : Outcome :=
  match options.inputFile?.bind openFault? with
  | some breakdown => .broken breakdown [] []
  | none =>
    match readSource surroundings options.inputFile? with
    | .error message => .failure 1 message [] []
    | .ok source => runOn surroundings options source

def run (surroundings : Surroundings) (arguments : List Text) : Outcome :=
  match Options.parse arguments with
  | .error error => .failure 2 error.message [] []
  | .ok options =>
    if options.showHelp then ⟨0, usage, [], [], none, none⟩ else runWith surroundings options

/-- The level from which on a run with arguments shows its log. -/
def logLevel? (arguments : List Text) : Option LogLevel :=
  match Options.parse arguments with
  | .error _ => none
  | .ok options => some options.logLevel

def standardError (arguments : List Text) (outcome : Outcome) : Text :=
  Notice.render (logLevel? arguments) outcome.notices

end HookScript.CommandLine
