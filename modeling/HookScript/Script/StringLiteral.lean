import HookScript.Text.Hex

/-!
# String literals

Text inside a string literal of a script is written in printable ASCII, so that
it can stand between quotes of either kind and neither ends the literal nor
breaks the line.  Quotes, backslashes and slashes are escaped by a backslash.
Controls and everything beyond ASCII are escaped as UTF-16 code units, a lone
surrogate like any other code unit.
-/

namespace HookScript.Script.StringLiteral

/-- The letter of the short escape of a code point, if it has one. -/
def shortEscape? (c : CodePoint) : Option Char :=
  if c = '\x27' then some '\x27'
  else if c = '\x22' then some '\x22'
  else if c = '\\' then some '\\'
  else if c = '/' then some '/'
  else if c = '\x08' then some 'b'
  else if c = '\n' then some 'n'
  else if c = '\t' then some 't'
  else if c = '\x0c' then some 'f'
  else if c = '\r' then some 'r'
  else none

/-- The escape of a UTF-16 code unit. -/
def escapeUnit (u : Nat) : Text := "\\u" ++ Hex.unit .upper u

/-- One code point inside a string literal. -/
def escapeCodePoint (c : CodePoint) : Text :=
  match shortEscape? c with
  | some letter => [.ofChar '\\', .ofChar letter]
  | none => if c.val < 0x20 ∨ 0x7F < c.val then c.units16.flatMap escapeUnit else [c]

/-- A text as it stands between the quotes of a string literal. -/
def escape (text : Text) : Text := text.flatMap escapeCodePoint

@[simp]
theorem escape_nil : escape [] = [] := rfl

@[simp]
theorem escape_cons (c : CodePoint) (rest : Text) :
    escape (c :: rest) = escapeCodePoint c ++ escape rest := rfl

@[simp]
theorem escape_append (first second : Text) :
    escape (first ++ second) = escape first ++ escape second :=
  List.flatMap_append

end HookScript.Script.StringLiteral
