import HookScript.Script.TemplateLiteral
import HookScript.Text.Hex

/-!
# How a script engine reads literals

A literal is read one code point at a time, from behind its opening delimiter on.
A backslash makes an escape of what follows it, and the first delimiter that no
escape takes in ends the literal.  Between backticks a dollar sign in front of a
brace starts a substitution, which ends at the next closing brace.  Whatever
stands behind the literal is kept as it is.

The value of a literal is a sequence of UTF-16 code units.  Escapes that scripts
of this library never hold, such as octal ones, are not understood: a literal
with one of them has no reading at all.
-/

namespace HookScript.Script.Literal

/-- What a literal is made of. -/
inductive Item where
  /-- A code unit of the value. -/
  | unit (u : Nat)
  | substitution (name : Text)
deriving DecidableEq

/-- Where a reader stands. -/
inductive Mode where
  | content
  /-- Behind a dollar sign that may start a substitution. -/
  | dollar
  /-- Behind a backslash. -/
  | escape
  /-- In the digits of an escaped code unit, with those before. -/
  | digits (before : Text)
  /-- In a substitution, with its code points before. -/
  | substitution (before : Text)
  /-- Behind the literal, with the code points since then. -/
  | closed (after : Text)
  /-- The text is no literal of this kind. -/
  | broken
deriving DecidableEq

/-- What a reader has read, and where it stands. -/
structure Reader where
  items : List Item
  mode : Mode
deriving DecidableEq

/-- A text as it stands for itself in the value of a literal. -/
def plain (text : Text) : List Item := text.units16.map .unit

/-- What a code point behind a backslash stands for.  Most stand for themselves. -/
def escaped? (c : CodePoint) : Option (List Item) :=
  if c = 'b' then some [.unit 0x8]
  else if c = 't' then some [.unit 0x9]
  else if c = 'n' then some [.unit 0xA]
  else if c = 'v' then some [.unit 0xB]
  else if c = 'f' then some [.unit 0xC]
  else if c = 'r' then some [.unit 0xD]
  else if c ∈ Text.ofString "x0123456789\n\r\u2028\u2029" then none
  else some (plain [c])

/-- Reads a code point that no escape and no substitution takes in. -/
def readContent (delimiter : CodePoint) (items : List Item) (c : CodePoint) : Reader :=
  if c = delimiter then ⟨items, .closed []⟩
  else if c = '\\' then ⟨items, .escape⟩
  else if delimiter = TemplateLiteral.backtick then
    if c = '$' then ⟨items, .dollar⟩ else ⟨items ++ plain [c], .content⟩
  else if c = '\n' ∨ c = '\r' then ⟨items, .broken⟩
  else ⟨items ++ plain [c], .content⟩

/-- Reads one more code point. -/
def step (delimiter : CodePoint) : Reader → CodePoint → Reader
  | ⟨items, .content⟩, c => readContent delimiter items c
  | ⟨items, .dollar⟩, c =>
    if c = '\x7b' then ⟨items, .substitution []⟩
    else readContent delimiter (items ++ plain ['$']) c
  | ⟨items, .escape⟩, c =>
    if c = 'u' then ⟨items, .digits []⟩
    else match escaped? c with
      | some more => ⟨items ++ more, .content⟩
      | none => ⟨items, .broken⟩
  | ⟨items, .digits [d₃, d₂, d₁]⟩, d₀ =>
    match Hex.unit? d₃ d₂ d₁ d₀ with
    | some u => ⟨items ++ [.unit u], .content⟩
    | none => ⟨items, .broken⟩
  | ⟨items, .digits before⟩, d => ⟨items, .digits (before ++ [d])⟩
  | ⟨items, .substitution before⟩, c =>
    if c = '\x7d' then ⟨items ++ [.substitution before], .content⟩
    else ⟨items, .substitution (before ++ [c])⟩
  | ⟨items, .closed after⟩, c => ⟨items, .closed (after ++ [c])⟩
  | ⟨items, .broken⟩, _ => ⟨items, .broken⟩

def run (delimiter : CodePoint) (reader : Reader) (text : Text) : Reader :=
  text.foldl (step delimiter) reader

/-- What a text starts with as far as it is a literal, its opening delimiter left
out, and what stands behind the literal. -/
def read (delimiter : CodePoint) (text : Text) : Option (List Item × Text) :=
  match run delimiter ⟨[], .content⟩ text with
  | ⟨items, .closed after⟩ => some (items, after)
  | _ => none

/-! ## Laws of reading -/

variable {delimiter : CodePoint} {items : List Item}

theorem run_append (reader : Reader) (first second : Text) :
    run delimiter reader (first ++ second) = run delimiter (run delimiter reader first) second :=
  List.foldl_append

theorem run_cons (reader : Reader) (c : CodePoint) (rest : Text) :
    run delimiter reader (c :: rest) = run delimiter (step delimiter reader c) rest := rfl

theorem plain_append (first second : Text) : plain (first ++ second) = plain first ++ plain second := by
  rw [plain, Text.units16, List.flatMap_append, List.map_append]
  rfl

theorem plain_cons (c : CodePoint) (rest : Text) : plain (c :: rest) = plain [c] ++ plain rest :=
  plain_append [c] rest

theorem plain_inj {first second : Text} :
    plain first = plain second ↔ first.units16 = second.units16 :=
  List.map_inj_right fun _ _ same => Item.unit.inj same

theorem run_closed (after rest : Text) :
    run delimiter ⟨items, .closed after⟩ rest = ⟨items, .closed (after ++ rest)⟩ := by
  induction rest generalizing after with
  | nil => rw [List.append_nil]; rfl
  | cons c rest ih =>
    rw [run_cons]
    change run delimiter ⟨items, .closed (after ++ [c])⟩ rest = _
    rw [ih, List.append_assoc]
    rfl

theorem run_delimiter (rest : Text) :
    run delimiter ⟨items, .content⟩ (delimiter :: rest) = ⟨items, .closed rest⟩ := by
  have closes : step delimiter ⟨items, .content⟩ delimiter = ⟨items, .closed []⟩ := if_pos rfl
  rw [run_cons, closes, run_closed]
  rfl

/-- A literal is what is read up to a delimiter. -/
theorem read_of_run {content after : Text}
    (ends : run delimiter ⟨[], .content⟩ content = ⟨items, .content⟩) :
    read delimiter (content ++ delimiter :: after) = some (items, after) := by
  rw [read, run_append, ends, run_delimiter]

example : read TemplateLiteral.backtick "a\x60;$\x7bx\x7d\x60" =
    some (plain "a", Text.ofString ";$\x7bx\x7d\x60") := by decide

example : read TemplateLiteral.backtick "\\\x60$\x7bx\x7d\x60);" =
    some (plain "\x60" ++ [.substitution "x"], Text.ofString ");") := by decide

theorem run_backslash (notDelimiter : delimiter ≠ '\\') (rest : Text) :
    run delimiter ⟨items, .content⟩ ('\\' :: rest) = run delimiter ⟨items, .escape⟩ rest := by
  have starts : step delimiter ⟨items, .content⟩ '\\' = ⟨items, .escape⟩ := by
    rw [step, readContent, if_neg (Ne.symm notDelimiter), if_pos rfl]
  rw [run_cons, starts]

theorem run_escaped (notDelimiter : delimiter ≠ '\\') {c : CodePoint} {more : List Item}
    (notUnit : c ≠ 'u') (known : escaped? c = some more) :
    run delimiter ⟨items, .content⟩ ['\\', c] = ⟨items ++ more, .content⟩ := by
  have meant : step delimiter ⟨items, .escape⟩ c = ⟨items ++ more, .content⟩ := by
    simp only [step, if_neg notUnit, known]
  rw [run_backslash notDelimiter, run_cons, meant]
  rfl

theorem run_digits {d₃ d₂ d₁ d₀ : CodePoint} {u : Nat} (known : Hex.unit? d₃ d₂ d₁ d₀ = some u) :
    run delimiter ⟨items, .digits []⟩ [d₃, d₂, d₁, d₀] = ⟨items ++ [.unit u], .content⟩ := by
  have last : step delimiter ⟨items, .digits [d₃, d₂, d₁]⟩ d₀ = ⟨items ++ [.unit u], .content⟩ := by
    simp only [step, known]
  exact last

theorem run_unit (notDelimiter : delimiter ≠ '\\') {u : Nat} (bound : u < 0x10000) :
    run delimiter ⟨items, .content⟩ (Text.ofString "\\u" ++ Hex.unit .upper u) =
      ⟨items ++ [.unit u], .content⟩ := by
  change run delimiter ⟨items, .content⟩ ('\\' :: 'u' :: Hex.unit .upper u) = _
  rw [run_backslash notDelimiter]
  exact run_digits (Hex.unit?_unit .upper bound)

theorem run_units (notDelimiter : delimiter ≠ '\\') {units : List Nat}
    (bound : ∀ u ∈ units, u < 0x10000) :
    run delimiter ⟨items, .content⟩
        (units.flatMap fun u => Text.ofString "\\u" ++ Hex.unit .upper u) =
      ⟨items ++ units.map Item.unit, .content⟩ := by
  induction units generalizing items with
  | nil => rw [List.map_nil, List.append_nil]; rfl
  | cons u units ih =>
    rw [List.flatMap_cons, run_append, run_unit notDelimiter (bound u List.mem_cons_self),
      ih fun v member => bound v (List.mem_cons_of_mem u member), List.append_assoc]
    rfl

/-! ## Laws of templates -/

/-- What may follow a dollar sign without making a substitution of it. -/
def NoBrace (rest : Text) : Prop := ∃ c ∈ rest.head?, c ≠ CodePoint.ofChar '\x7b'

theorem run_template_dollar {rest : Text} (follows : NoBrace rest) :
    run TemplateLiteral.backtick ⟨items, .content⟩ ('$' :: rest) =
      run TemplateLiteral.backtick ⟨items ++ plain ['$'], .content⟩ rest := by
  rcases follows with ⟨c, starts, other⟩
  cases rest with
  | nil => cases starts
  | cons d rest =>
    cases starts
    have passes : step TemplateLiteral.backtick ⟨items, .dollar⟩ c =
        step TemplateLiteral.backtick ⟨items ++ plain ['$'], .content⟩ c := if_neg other
    change run TemplateLiteral.backtick (step TemplateLiteral.backtick ⟨items, .dollar⟩ c) rest = _
    rw [passes]
    rfl

/-- The code points that mean something in a template. -/
def templateMarks : Text := [TemplateLiteral.backtick, '\\', '\x7b']

/-- Text without such code points stands for itself, unless it ends in a dollar
sign and a brace follows. -/
theorem run_template_plain {text rest : Text} (unmarked : ∀ c ∈ text, c ∉ templateMarks)
    (follows : NoBrace rest) :
    run TemplateLiteral.backtick ⟨items, .content⟩ (text ++ rest) =
      run TemplateLiteral.backtick ⟨items ++ plain text, .content⟩ rest := by
  induction text generalizing items with
  | nil => rw [List.nil_append, plain, Text.units16, List.flatMap_nil, List.map_nil, List.append_nil]
  | cons c text ih =>
    have later : ∀ d ∈ text, d ∉ templateMarks := fun d member =>
      unmarked d (List.mem_cons_of_mem c member)
    have here : c ≠ TemplateLiteral.backtick ∧ c ≠ '\\' ∧ c ≠ '\x7b' := by
      simpa only [templateMarks, List.mem_cons, List.not_mem_nil, or_false, not_or]
        using unmarked c List.mem_cons_self
    have goesOn : NoBrace (text ++ rest) := by
      cases text with
      | nil => exact follows
      | cons d text =>
        refine ⟨d, rfl, fun brace => ?_⟩
        rw [brace] at later
        exact later _ List.mem_cons_self (by decide)
    have one : run TemplateLiteral.backtick ⟨items, .content⟩ (c :: (text ++ rest)) =
        run TemplateLiteral.backtick ⟨items ++ plain [c], .content⟩ (text ++ rest) := by
      by_cases dollar : c = '$'
      · subst dollar
        exact run_template_dollar goesOn
      · rw [run_cons, step, readContent, if_neg here.1, if_neg here.2.1, if_pos rfl, if_neg dollar]
    rw [List.cons_append, one, ih later, plain_cons c text, List.append_assoc]

theorem run_substitution_name {before name : Text} (noBrace : CodePoint.ofChar '\x7d' ∉ name) :
    run TemplateLiteral.backtick ⟨items, .substitution before⟩ (name ++ [CodePoint.ofChar '\x7d']) =
      ⟨items ++ [.substitution (before ++ name)], .content⟩ := by
  induction name generalizing before with
  | nil =>
    rw [List.append_nil]
    rfl
  | cons c name ih =>
    rw [List.mem_cons, not_or] at noBrace
    have inside : step TemplateLiteral.backtick ⟨items, .substitution before⟩ c =
        ⟨items, .substitution (before ++ [c])⟩ := if_neg (Ne.symm noBrace.1)
    rw [List.cons_append, run_cons, inside, ih noBrace.2, List.append_assoc]
    rfl

theorem run_substitution {name : Text} (noBrace : CodePoint.ofChar '\x7d' ∉ name) :
    run TemplateLiteral.backtick ⟨items, .content⟩ (TemplateLiteral.substitution name) =
      ⟨items ++ [.substitution name], .content⟩ := by
  have opens : TemplateLiteral.substitution name =
      Text.ofString "$\x7b" ++ (name ++ [CodePoint.ofChar '\x7d']) := List.append_assoc ..
  rw [opens, run_append]
  exact run_substitution_name noBrace

end HookScript.Script.Literal
