import HookScript.CommandLine.Run

/-!
# The program

Finds out what a run may find around it, and does what the outcome of the run
says.  There is no clipboard here.
-/

namespace HookScript.CommandLine

/-- The rest of a stream. -/
partial def readToEnd (stream : IO.FS.Stream) (before : ByteArray) : IO ByteArray := do
  let bytes ← stream.read 65536
  if bytes.isEmpty then return before else readToEnd stream (before ++ bytes)

/-- The bytes of a file, if it can be read. -/
def fileBytes? (name : Text) : IO (Option ByteArray) := do
  match name.toString? with
  | none => return none
  | some name =>
    try return some (← IO.FS.readBinFile name)
    catch _ => return none

def tryWrite (name content : Text) : IO Bool := do
  match name.toString?, content.toUtf8? with
  | some name, some bytes =>
    try
      IO.FS.writeBinFile name bytes
      return true
    catch _ => return false
  | _, _ => return false

/-- The surroundings of a run with options, in which every file can be
written. -/
def surroundingsFor (options : Options) : IO Surroundings := do
  let file? ← match options.inputFile? with
    | some name => fileBytes? name
    | none => pure none
  let input ← match options.inputFile? with
    | some _ => pure ByteArray.empty
    | none => do readToEnd (← IO.getStdin) ByteArray.empty
  return {
    standardInput := input
    fileBytes? := fun _ => file?
    canWrite := fun _ => true
    clipboardFault? := some "no clipboard available"
    generator := Generator.standard
  }

/-- The surroundings of a run with arguments.  Input is read only if the run
needs it. -/
def surroundings (arguments : List Text) : IO Surroundings := do
  match Options.parse arguments with
  | .ok options =>
    if options.showHelp then surroundingsFor { options with inputFile? := some [] }
    else surroundingsFor options
  | .error _ => surroundingsFor { Options.default with inputFile? := some [] }

def put (stream : IO.FS.Stream) (text : Text) : IO Unit := do
  match text.toUtf8? with
  | some bytes =>
    stream.write bytes
    stream.flush
  | none => return

end HookScript.CommandLine

open HookScript HookScript.CommandLine in
/-- Runs the program.  A file that cannot be written makes it a run in which
nothing can be written. -/
def main (arguments : List String) : IO UInt32 := do
  let arguments := arguments.map Text.ofString
  let around ← surroundings arguments
  let planned := run around arguments
  let outcome ← match planned.written? with
    | none => pure planned
    | some (name, content) =>
      if ← tryWrite name content then pure planned
      else pure (run { around with canWrite := fun _ => false } arguments)
  put (← IO.getStdout) outcome.standardOutput
  put (← IO.getStderr) (standardError arguments outcome)
  if let some breakdown := outcome.breakdown? then
    put (← IO.getStderr) (breakdown.message ++ "\n")
  return outcome.exitCode.toUInt32
