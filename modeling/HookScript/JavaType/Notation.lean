import HookScript.JavaType.Basic
import HookScript.JavaType.BinaryName
import HookScript.Text.Blank

/-!
# Notations of types

A type may be given as a descriptor, the form of signatures, or as it is written
in source code.  Which of the two a text is meant to be shows at its ends: a
descriptor starts with a bracket, or runs from an `L` to a semicolon, or is a
single descriptor letter.  Hence a class of the unnamed package whose name is
one of the nine descriptor letters cannot be given on its own.

Blanks around a type do not count, nor do blanks in front of a pair of brackets
of the source form.
-/

namespace HookScript

/-- Why a text is no type. -/
inductive NotationFlaw where
  | emptyType
  /-- A class name is no binary name. -/
  | name (flaw : NameFlaw)
  /-- The text ends where the base of an array should start. -/
  | truncated
  | arrayOfVoid
  /-- No semicolon ends the class. -/
  | unterminatedClass
  /-- No type has this letter as its descriptor. -/
  | unknownDescriptor (letter : CodePoint)
  /-- Something follows the descriptor. -/
  | trailing
  /-- A bracket stands outside of the pairs at the end. -/
  | unbalancedBrackets
deriving DecidableEq

def NotationFlaw.message : NotationFlaw → Text
  | .emptyType => "empty type"
  | .name flaw => flaw.message
  | .truncated => "truncated descriptor"
  | .arrayOfVoid => "array of void"
  | .unterminatedClass => "unterminated class descriptor"
  | .unknownDescriptor letter => "unknown descriptor '" ++ [letter] ++ "'"
  | .trailing => "trailing characters after descriptor"
  | .unbalancedBrackets => "unbalanced array brackets"

/-- A flaw together with the text that has it. -/
structure NotationError where
  flaw : NotationFlaw
  /-- The text without the blanks around it. -/
  text : Text
deriving DecidableEq

def NotationError.message (error : NotationError) : Text :=
  error.flaw.message ++ ": '" ++ error.text ++ "'"

namespace JavaType

/-- The class with a name, which has to be a binary name. -/
def classNamed (name : Text) : Except NotationFlaw JavaType :=
  match NameFlaw.of? name with
  | some flaw => .error (.name flaw)
  | none => .ok (object name)

/-! ## Descriptors -/

/-- The base of a descriptor in front of a text, and what follows it.  Slashes
and dots may both separate the packages of a class. -/
def readBase : Text → Except NotationFlaw (JavaType × Text)
  | [] => .error .truncated
  | letter :: rest =>
    if letter = 'L' then
      match rest.dropWhile fun c => c ≠ .ofChar ';' with
      | [] => .error .unterminatedClass
      | _ :: after => do
        let name := Text.replaceEach '/' '.' (rest.takeWhile fun c => c ≠ .ofChar ';')
        return (← classNamed name, after)
    else match Primitive.ofDescriptor? letter with
      | some type => .ok (primitive type, rest)
      | none => .error (.unknownDescriptor letter)

/-- The descriptor in front of a text, and what follows it. -/
def readDescriptor : Text → Except NotationFlaw (JavaType × Text)
  | [] => .error .truncated
  | c :: rest =>
    if c = '[' then do
      let (element, after) ← readDescriptor rest
      if element = void then throw .arrayOfVoid
      return (element.array, after)
    else readBase (c :: rest)

/-- Whether a text is meant to be a descriptor. -/
def looksLikeDescriptor (text : Text) : Bool :=
  text.head? = some (.ofChar '[') ||
    (text.head? = some (.ofChar 'L') && text.getLast? = some (.ofChar ';')) ||
    match text with
    | [letter] => (Primitive.ofDescriptor? letter).isSome
    | _ => false

def ofDescriptor (text : Text) : Except NotationFlaw JavaType := do
  let (type, after) ← readDescriptor text
  if after ≠ [] then throw .trailing
  return type

/-! ## Source form -/

/-- Counts the pairs of brackets at the end of a text, which is given backwards,
and takes them off together with the blanks around them. -/
def takeBrackets : Text → Nat × Text
  | close :: openBracket :: rest =>
    if close = ']' ∧ openBracket = '[' then
      let (dims, base) := takeBrackets rest
      (dims + 1, base)
    else if close.isBlank then takeBrackets (openBracket :: rest)
    else (0, close :: openBracket :: rest)
  | [c] => if c.isBlank then (0, []) else (0, [c])
  | [] => (0, [])

/-- The type that is written in source code as a base and a number of pairs of
brackets. -/
def ofBase (base : Text) (dims : Nat) : Except NotationFlaw JavaType := do
  if base.contains '[' || base.contains ']' then throw .unbalancedBrackets
  match Primitive.ofName? base with
  | some type =>
    if 0 < dims && type = .void then throw .arrayOfVoid
    return ⟨.primitive type, dims⟩
  | none =>
    let type ← classNamed base
    return ⟨type.base, dims⟩

/-- The type that a text without blanks around it is the source form of. -/
def ofSource (text : Text) : Except NotationFlaw JavaType :=
  let (dims, base) := takeBrackets text.reverse
  ofBase base.reverse dims

/-! ## Both -/

/-- The type that a text without blanks around it denotes. -/
def ofTrimmed (text : Text) : Except NotationFlaw JavaType :=
  if text = [] then .error .emptyType
  else if looksLikeDescriptor text then ofDescriptor text
  else ofSource text

/-- The type that a text denotes. -/
def parse (text : Text) : Except NotationError JavaType :=
  match ofTrimmed text.trim with
  | .ok type => .ok type
  | .error flaw => .error ⟨flaw, text.trim⟩

end JavaType

end HookScript
