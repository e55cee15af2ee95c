import HookScript.Text.Basic

/-!
# Template literals

Between the backticks of a template literal a backtick ends the literal and a
dollar sign in front of a brace starts a substitution.  A backslash in front of
them makes both of them plain text.
-/

namespace HookScript.Script.TemplateLiteral

/-- The backtick, which encloses template literals. -/
def backtick : CodePoint := .ofChar '\x60'

/-- A text as it stands between the backticks of a template literal.  Backslashes
are left alone: a text that may hold some is escaped for a string literal
before. -/
def escape : Text → Text
  | c :: d :: rest =>
    if c = backtick then .ofChar '\\' :: c :: escape (d :: rest)
    else if c = '$' ∧ d = '\x7b' then .ofChar '\\' :: c :: escape (d :: rest)
    else c :: escape (d :: rest)
  | [c] => if c = backtick then [.ofChar '\\', c] else [c]
  | [] => []

def enclose (content : Text) : Text := backtick :: content ++ [backtick]

/-- The substitution of a variable. -/
def substitution (name : Text) : Text := "$\x7b" ++ name ++ "\x7d"

end HookScript.Script.TemplateLiteral
