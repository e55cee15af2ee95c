import HookScript.Text.Numeral
import HookScript.Text.Basic

/-!
# Identifiers

The names that a script may declare: a letter, an underscore or a dollar sign,
then any number of these and of digits and other numerals, as long as the whole
is not a reserved word.
-/

namespace HookScript.Script

/-- The words that no variable may be named by. -/
def reservedWords : List Text :=
  List.map Text.ofString
    ["await", "break", "case", "catch", "class", "const", "continue", "debugger", "default",
      "delete", "do", "else", "enum", "export", "extends", "false", "finally", "for",
      "function", "if", "implements", "import", "in", "instanceof", "interface", "let", "new",
      "null", "package", "private", "protected", "public", "return", "static", "super",
      "switch", "this", "throw", "true", "try", "typeof", "var", "void", "while", "with",
      "yield"]

def isIdentifierStart (c : CodePoint) : Bool := c = '_' || c = '$' || c.isLetter

/-- Whether a code point may stand in an identifier after its start. -/
def isIdentifierPart (c : CodePoint) : Bool := c = '_' || c = '$' || c.isAlphanumeric

/-- Whether a text can be declared as the name of a variable. -/
def isIdentifier : Text → Bool
  | [] => false
  | c :: rest =>
    isIdentifierStart c && rest.all isIdentifierPart && !reservedWords.contains (c :: rest)

/-- What may start an identifier may also stand in it. -/
theorem isIdentifierPart_of_isIdentifierStart {c : CodePoint}
    (start : isIdentifierStart c = true) : isIdentifierPart c = true := by
  simp only [isIdentifierStart, isIdentifierPart, Bool.or_eq_true] at start ⊢
  exact start.imp_right CodePoint.isAlphanumeric_of_isLetter

end HookScript.Script
