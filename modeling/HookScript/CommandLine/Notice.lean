import HookScript.CommandLine.Options
import HookScript.Text.Hex

/-!
# Notices

What a run reports besides its result: why it failed, and what it logs on the
way.  Failures are always shown.  Log records are shown from a level on, or not
at all if nobody asked for a log.
-/

namespace HookScript.CommandLine

/-- The parts of the program that log. -/
inductive Logger where
  | loader
  | generator
  | commandLine
deriving DecidableEq

def Logger.name : Logger → Text
  | .loader => "fridagen.frontend.loader"
  | .generator => "fridagen.backend.frida"
  | .commandLine => "fridagen.cli"

/-- Something that a run reports. -/
inductive Notice where
  /-- The run fails. -/
  | failure (message : Text)
  /-- A log record, perhaps with a trace of where it comes from. -/
  | record (level : LogLevel) (logger : Logger) (message : Text) (traced : Bool)
deriving DecidableEq

namespace Notice

def text : Notice → Text
  | .failure message => "error: " ++ message ++ "\n"
  | .record level logger message traced =>
    level.name ++ " " ++ logger.name ++ ": " ++ message ++ "\n" ++
      if traced then "<traceback>\n" else ""

def isShown (threshold? : Option LogLevel) : Notice → Bool
  | .failure _ => true
  | .record level _ _ _ => threshold?.any fun threshold => threshold.rank ≤ level.rank

/-- Lone surrogates cannot be shown; their escapes stand in for them. -/
def showCodePoint (c : CodePoint) : Text :=
  if c.isSurrogate then "\\u" ++ Hex.unit .lower c.val else [c]

/-- The notices that are shown, as one text. -/
def render (threshold? : Option LogLevel) (notices : List Notice) : Text :=
  ((notices.filter (isShown threshold?)).flatMap text).flatMap showCodePoint

end Notice

end HookScript.CommandLine
