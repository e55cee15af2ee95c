import HookScript.CommandLine.FileName
import HookScript.Text.Utf8

/-!
# Directories

A directory with nothing but files in it, as a run sees it.  A file is named by
its name alone or by a path that stays in the directory.  Names and paths may
not be arbitrarily long, and their length counts in bytes.
-/

namespace HookScript.CommandLine

/-- Contents are compared byte by byte. -/
instance decidableEqContent : DecidableEq ByteArray := ByteArray.instDecidableEq

/-- Files by name. -/
structure Directory where
  files : List (FileName × ByteArray)

namespace Directory

/-- How many bytes the name of a file may have. -/
def longestName : Nat := 255

/-- How many bytes a path may have. -/
def longestPath : Nat := 4095

/-- The last step of a path in a directory without subdirectories, if the steps
before it stay in the directory. -/
def lastStep? (path : Text) : Option Text :=
  match (path.splitAtEach '/').reverse with
  | [] => none
  | [name] => if name = [] ∨ name = "." ∨ name = ".." then none else some name
  | name :: steps =>
    if name = [] ∨ name = "." ∨ name = ".." then none
    else if steps.getLast? = some [] then none
    else if steps.all fun step => step = "." ∨ step = [] then some name
    else none

/-- Whether a text stands for some bytes, and for no more of them than a bound. -/
def fits (bound : Nat) (text : Text) : Bool :=
  (FileName.ofText? text).any fun name => name.size ≤ bound

/-- The file name that a path in a directory without subdirectories leads to. -/
def fileName? (path : Text) : Option FileName :=
  if fits longestPath path then
    ((lastStep? path).filter (fits longestName)).bind FileName.ofText?
  else none

def read? (directory : Directory) (path : Text) : Option ByteArray :=
  (fileName? path).bind fun name => directory.files.lookup name

/-- Whether there can be a file at a path. -/
def canWrite (path : Text) : Bool := (fileName? path).isSome

/-- The file that changes if a text is written to a path, with the text. -/
def changes (directory : Directory) (path content : Text) : List (FileName × Text) :=
  match fileName? path with
  | none => []
  | some name => if directory.files.lookup name = content.toUtf8? then [] else [(name, content)]

end Directory

end HookScript.CommandLine
