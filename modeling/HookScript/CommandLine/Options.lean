import HookScript.Text.Basic

/-!
# Command-line options

Arguments are read from left to right.  A flag that takes a value takes the next
argument, whatever it looks like; of several values for one option the last
counts.  Asking for help ends the reading, and what was read until then is not
checked any further.
-/

namespace HookScript.CommandLine

/-- How much a log record matters, and how much of the log is shown. -/
inductive LogLevel where
  | debug
  | info
  | warning
  | error
deriving DecidableEq

namespace LogLevel

/-- The level on the usual scale. -/
def rank : LogLevel → Nat
  | .debug => 10
  | .info => 20
  | .warning => 30
  | .error => 40

def name : LogLevel → Text
  | .debug => "DEBUG"
  | .info => "INFO"
  | .warning => "WARNING"
  | .error => "ERROR"

/-- The one of two levels that shows more. -/
def moreVerbose (first second : LogLevel) : LogLevel :=
  if second.rank < first.rank then second else first

end LogLevel

/-- What the arguments ask for. -/
structure Options where
  className? : Option Text
  method? : Option Text
  field? : Option Text
  /-- The phase after which to stop. -/
  stopAt? : Option Text
  /-- Whether to copy the snippet to the clipboard. -/
  copy : Bool
  logLevel : LogLevel
  /-- The file with the model; standard input if there is none. -/
  inputFile? : Option Text
  /-- The file for the output; standard output if there is none. -/
  outputFile? : Option Text
  showHelp : Bool
deriving DecidableEq

/-- Why arguments are not understood. -/
inductive UsageError where
  | missingValue (flag : Text)
  | unknownFlag (argument : Text)
  | unexpectedArgument (argument : Text)
  | unknownPhase (name : Text)
  | methodAndField
  | noClass
deriving DecidableEq

def UsageError.message : UsageError → Text
  | .missingValue flag => flag ++ " requires an argument"
  | .unknownFlag argument => "unknown flag '" ++ argument ++ "'"
  | .unexpectedArgument argument => "unexpected argument '" ++ argument ++ "'"
  | .unknownPhase name => "unknown phase '" ++ name ++ "'"
  | .methodAndField => "--method and --field are mutually exclusive"
  | .noClass => "--class is required"

/-! ## Phases -/

/-- The phases after which a run may stop. -/
inductive Phase where
  | load
  | select
deriving DecidableEq

def Phase.name : Phase → Text
  | .load => "load"
  | .select => "select"

def isPhaseName (text : Text) : Bool := [Phase.load, Phase.select].any fun p => p.name = text

/-! ## Flags -/

/-- The options that take a value. -/
inductive Setting where
  | className
  | method
  | field
  | stopAt
  | outputFile
deriving DecidableEq

/-- The option that a flag sets to the next argument. -/
def Setting.ofFlag? (flag : Text) : Option Setting :=
  if flag = "--class" then some .className
  else if flag = "--method" then some .method
  else if flag = "--field" then some .field
  else if flag = "--stop-at" then some .stopAt
  else if flag = "-o" ∨ flag = "--output" then some .outputFile
  else none

/-- The flags that stand alone. -/
inductive Switch where
  | help
  | copy
  | verbose
  | debug
deriving DecidableEq

def Switch.ofFlag? (flag : Text) : Option Switch :=
  if flag = "--help" ∨ flag = "-h" then some .help
  else if flag = "--copy" then some .copy
  else if flag = "-v" ∨ flag = "--verbose" then some .verbose
  else if flag = "--debug" then some .debug
  else none

/-- The argument that stands for standard input. -/
def standardInputName : Text := "-"

def looksLikeFlag (argument : Text) : Bool :=
  argument.head? = some (.ofChar '-') && argument ≠ standardInputName

namespace Options

/-- What no arguments ask for. -/
def default : Options where
  className? := none
  method? := none
  field? := none
  stopAt? := none
  copy := false
  logLevel := .warning
  inputFile? := none
  outputFile? := none
  showHelp := false

/-- The options with one of them set to a value. -/
def set (options : Options) (setting : Setting) (value : Text) : Options :=
  match setting with
  | .className => { options with className? := some value }
  | .method => { options with method? := some value }
  | .field => { options with field? := some value }
  | .stopAt => { options with stopAt? := some value }
  | .outputFile => { options with outputFile? := some value }

def turnOn (options : Options) : Switch → Options
  | .help => { options with showHelp := true }
  | .copy => { options with copy := true }
  | .verbose => { options with logLevel := options.logLevel.moreVerbose .info }
  | .debug => { options with logLevel := .debug }

/-- Reads arguments on top of options.  A positional argument is refused if an
input file is known already. -/
def read (options : Options) : List Text → Except UsageError Options
  | [] => .ok options
  | argument :: rest =>
    match Setting.ofFlag? argument, Switch.ofFlag? argument with
    | some setting, _ =>
      match rest with
      | [] => .error (.missingValue argument)
      | value :: rest => read (options.set setting value) rest
    | none, some .help => .ok (options.turnOn .help)
    | none, some switch => read (options.turnOn switch) rest
    | none, none =>
      if looksLikeFlag argument then .error (.unknownFlag argument)
      else if options.inputFile?.isSome then .error (.unexpectedArgument argument)
      else
        let file? := if argument = standardInputName then none else some argument
        read { options with inputFile? := file? } rest

/-- Checks that options fit together. -/
def check (options : Options) : Except UsageError Options :=
  match options.stopAt?.filter fun phase => !isPhaseName phase with
  | some phase => .error (.unknownPhase phase)
  | none =>
    if options.method?.isSome && options.field?.isSome then .error .methodAndField
    else if options.className?.isNone && options.stopAt? ≠ some Phase.load.name then
      .error .noClass
    else .ok options

def parse (arguments : List Text) : Except UsageError Options := do
  let options ← default.read arguments
  if options.showHelp then return options else options.check

end Options

def usage : Text :=
  "fridagen [OPTIONS] [MODEL] --class NAME [--method SEL | --field SEL] [-o OUTPUT]

Generate a Frida hook snippet for a class, method or field described in
the JSON program model MODEL (stdin if omitted).

Options:
  --class NAME        Class raw binary name or alias
  --method SEL        Method raw name, alias, or signature id like baz(I)V
  --field SEL         Field raw name or alias
  --stop-at PHASE     Stop after phase: load, select
  --copy              Also copy the snippet to the clipboard
  -v, --verbose       Log generated snippets to stderr
  --debug             Log debug diagnostics to stderr
  -o, --output FILE   Write output to FILE instead of stdout
  --help              Show this help message
"

end HookScript.CommandLine
