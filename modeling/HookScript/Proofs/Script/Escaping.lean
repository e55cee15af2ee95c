import HookScript.Proofs.Script.Literal
import HookScript.Script.StringLiteral

/-!
# Escaped text is read back

Text that is escaped for a string literal is read back as the code units that it
has, between quotes of either kind.  Text that is escaped for a template after
that is read back between backticks, as long as no brace follows it.  In neither
case does a code point of the text mean anything to the reader, so the literal
goes on where the escaped text ends.

Escaping loses nothing but the difference between a surrogate pair and its two
halves: escaped texts are equal exactly if their code units are.
-/

namespace HookScript.Script

open Literal

/-! ## String literals -/

namespace StringLiteral

variable {delimiter : CodePoint} {items : List Item}

/-- What escapes are made of. -/
def escapeMarks : Text := "\\\x22\x27/bntfru0123456789ABCDEF"

/-- The code points that have a short escape, with the letters of their escapes. -/
def shortEscapes : List (CodePoint × Char) :=
  [('\x27', '\x27'), ('\x22', '\x22'), ('\\', '\\'), ('/', '/'), ('\x08', 'b'), ('\n', 'n'),
    ('\t', 't'), ('\x0c', 'f'), ('\r', 'r')]

theorem mem_shortEscapes {c : CodePoint} {letter : Char} (short : shortEscape? c = some letter) :
    (c, letter) ∈ shortEscapes := by
  simp only [shortEscape?] at short
  repeat'
    split at short
    next same =>
      cases short
      rw [same]
      decide
  cases short

theorem escaped?_of_shortEscape? {c : CodePoint} {letter : Char}
    (short : shortEscape? c = some letter) :
    escaped? letter = some (plain [c]) ∧ letter ≠ 'u' ∧ .ofChar letter ∈ escapeMarks ∧
      c.val ≤ 0x7F := by
  have every : ∀ entry ∈ shortEscapes, escaped? entry.2 = some (plain [entry.1]) ∧
      entry.2 ≠ 'u' ∧ .ofChar entry.2 ∈ escapeMarks ∧ entry.1.val ≤ 0x7F := by decide
  exact every (c, letter) (mem_shortEscapes short)

theorem ne_of_shortEscape?_eq_none {c : CodePoint} (noShort : shortEscape? c = none) :
    ∀ special ∈ Text.ofString "\\\x22\x27\n\r", c ≠ special := by
  have every : ∀ special ∈ Text.ofString "\\\x22\x27\n\r", shortEscape? special ≠ none := by decide
  intro special listed same
  exact every special listed (same ▸ noShort)

theorem escapeCodePoint_of_beyond {c : CodePoint} (beyond : 0x7F < c.val) :
    escapeCodePoint c = c.units16.flatMap escapeUnit := by
  cases short : shortEscape? c with
  | some letter => exact absurd (escaped?_of_shortEscape? short).2.2.2 (Nat.not_le_of_lt beyond)
  | none => simp only [escapeCodePoint, short, beyond, or_true, if_true]

theorem mem_escapeUnit {u : Nat} {d : CodePoint} (member : d ∈ escapeUnit u) : d ∈ escapeMarks := by
  have digits : ∀ value < 16, Hex.digit .upper value ∈ escapeMarks := by decide
  have start : ∀ d ∈ Text.ofString "\\u", d ∈ escapeMarks := by decide
  rcases List.mem_append.mp member with before | digit
  · exact start d before
  · simp only [Hex.unit, List.mem_cons, List.not_mem_nil, or_false] at digit
    rcases digit with rfl | rfl | rfl | rfl <;> exact digits _ (Nat.mod_lt _ (by decide))

/-- A code point stands for itself or is written as an escape. -/
theorem mem_escapeCodePoint {c d : CodePoint} (member : d ∈ escapeCodePoint c) :
    (d = c ∧ 0x20 ≤ c.val ∧ c.val ≤ 0x7F) ∨ d ∈ escapeMarks := by
  unfold escapeCodePoint at member
  split at member
  next letter short =>
    right
    rcases List.mem_cons.mp member with rfl | member
    · decide
    · rw [List.mem_singleton.mp member]
      exact (escaped?_of_shortEscape? short).2.2.1
  next =>
    split at member
    next =>
      rcases List.mem_flatMap.mp member with ⟨u, _, inside⟩
      exact Or.inr (mem_escapeUnit inside)
    next visible =>
      rw [not_or, Nat.not_lt, Nat.not_lt] at visible
      exact Or.inl ⟨List.mem_singleton.mp member, visible⟩

/-- Everything in a string literal is printable ASCII, or a delete character. -/
theorem mem_escape {text : Text} {d : CodePoint} (member : d ∈ escape text) :
    0x20 ≤ d.val ∧ d.val ≤ 0x7F := by
  have marks : ∀ mark ∈ escapeMarks, 0x20 ≤ mark.val ∧ mark.val ≤ 0x7F := by decide
  rcases List.mem_flatMap.mp member with ⟨c, _, inside⟩
  rcases mem_escapeCodePoint inside with ⟨rfl, range⟩ | mark
  · exact range
  · exact marks d mark

/-! ### Reading -/

theorem run_escapeCodePoint (notDelimiter : delimiter ≠ '\\') {c : CodePoint}
    (itself : shortEscape? c = none →
      readContent delimiter items c = ⟨items ++ plain [c], .content⟩) :
    run delimiter ⟨items, .content⟩ (escapeCodePoint c) = ⟨items ++ plain [c], .content⟩ := by
  unfold escapeCodePoint
  split
  next letter short =>
    have known := escaped?_of_shortEscape? short
    exact run_escaped notDelimiter (fun same => known.2.1 (CodePoint.ofChar_inj.mp same)) known.1
  next short =>
    split
    next =>
      rw [plain, Text.units16, List.flatMap_singleton]
      exact run_units notDelimiter c.units16_lt
    next => exact itself short

theorem readContent_of_quote (quote : delimiter = '\x22' ∨ delimiter = '\x27') {c : CodePoint}
    (noShort : shortEscape? c = none) :
    readContent delimiter items c = ⟨items ++ plain [c], .content⟩ := by
  have other := ne_of_shortEscape?_eq_none noShort
  have notDelimiter : c ≠ delimiter := by
    rcases quote with rfl | rfl
    · exact other _ (by decide)
    · exact other _ (by decide)
  have noTemplate : delimiter ≠ TemplateLiteral.backtick := by
    rcases quote with rfl | rfl <;> decide
  have noBreak : ¬(c = '\n' ∨ c = '\r') := not_or_intro (other _ (by decide)) (other _ (by decide))
  rw [readContent, if_neg notDelimiter, if_neg (other _ (by decide)), if_neg noTemplate,
    if_neg noBreak]

theorem run_escape (quote : delimiter = '\x22' ∨ delimiter = '\x27') (text : Text) :
    run delimiter ⟨items, .content⟩ (escape text) = ⟨items ++ plain text, .content⟩ := by
  have notDelimiter : delimiter ≠ '\\' := by
    rcases quote with rfl | rfl <;> decide
  induction text generalizing items with
  | nil =>
    change _ = (⟨items ++ [], .content⟩ : Reader)
    rw [List.append_nil]
    rfl
  | cons c text ih =>
    rw [escape_cons, run_append, run_escapeCodePoint notDelimiter (readContent_of_quote quote), ih,
      plain_cons c text, List.append_assoc]

/-- An escaped text between quotes is a literal with the code units of the text. -/
theorem read_escape (quote : delimiter = '\x22' ∨ delimiter = '\x27') (text after : Text) :
    read delimiter (escape text ++ delimiter :: after) = some (plain text, after) :=
  read_of_run (run_escape quote text)

/-! ### Comparing -/

theorem units16_append_quote_inj {first second after after' : Text}
    (same : escape first ++ .ofChar '\x22' :: after = escape second ++ .ofChar '\x22' :: after') :
    first.units16 = second.units16 ∧ after = after' := by
  have whole := read_escape (Or.inl rfl) first after
  rw [same, read_escape (Or.inl rfl)] at whole
  rcases Prod.mk.inj (Option.some.inj whole) with ⟨units, rest⟩
  exact ⟨(plain_inj.mp units).symm, rest.symm⟩

theorem escapeCodePoint_eq_flatMap (c : CodePoint) :
    escapeCodePoint c = c.units16.flatMap fun u => escapeCodePoint (.ofNat u) := by
  by_cases basic : c.val < 0x10000
  · rw [CodePoint.units16, if_pos basic, List.flatMap_singleton, CodePoint.ofNat_val]
  · have surrogate : ∀ u ∈ c.units16, escapeUnit u = escapeCodePoint (.ofNat u) := by
      intro u member
      have below := c.units16_lt u member
      have above : 0x7F < u := by
        rw [CodePoint.units16, if_neg basic] at member
        simp only [List.mem_cons, List.not_mem_nil, or_false] at member
        omega
      have value : (CodePoint.ofNat u).val = u := CodePoint.val_ofNat (by omega)
      rw [escapeCodePoint_of_beyond (by omega), CodePoint.units16, value, if_pos below,
        List.flatMap_singleton]
    rw [escapeCodePoint_of_beyond (by omega), List.flatMap_def, List.flatMap_def,
      List.map_congr_left surrogate]

/-- Only the code units of a text count for its escaped form. -/
theorem escape_eq_flatMap (text : Text) :
    escape text = text.units16.flatMap fun u => escapeCodePoint (.ofNat u) := by
  rw [Text.units16, List.flatMap_assoc, escape]
  exact congrArg (text.flatMap ·) (funext escapeCodePoint_eq_flatMap)

theorem escape_eq_iff {first second : Text} :
    escape first = escape second ↔ first.units16 = second.units16 := by
  constructor
  · intro same
    exact (units16_append_quote_inj (congrArg (· ++ [CodePoint.ofChar '\x22']) same)).1
  · intro units
    rw [escape_eq_flatMap, escape_eq_flatMap, units]

end StringLiteral

/-! ## Templates -/

namespace TemplateLiteral

variable {items : List Item}

theorem escape_backtick (rest : Text) :
    escape (backtick :: rest) = .ofChar '\\' :: backtick :: escape rest := by
  cases rest with
  | nil => rfl
  | cons d rest => rw [escape, if_pos rfl]

theorem escape_dollar_brace {rest : Text} (brace : rest.head? = some (.ofChar '\x7b')) :
    escape (.ofChar '$' :: rest) = .ofChar '\\' :: .ofChar '$' :: escape rest := by
  cases rest with
  | nil => cases brace
  | cons d rest =>
    cases brace
    rfl

theorem escape_dollar {rest : Text} (noBrace : rest.head? ≠ some (.ofChar '\x7b')) :
    escape (.ofChar '$' :: rest) = .ofChar '$' :: escape rest := by
  cases rest with
  | nil => rfl
  | cons d rest =>
    have other : ¬(CodePoint.ofChar '$' = '$' ∧ d = '\x7b') :=
      fun both => noBrace (congrArg some both.2)
    rw [escape, if_neg (by decide), if_neg other]

theorem escape_cons_of_ne {c : CodePoint} (notBacktick : c ≠ backtick) (notDollar : c ≠ '$')
    (rest : Text) : escape (c :: rest) = c :: escape rest := by
  cases rest with
  | nil => exact if_neg notBacktick
  | cons d rest => rw [escape, if_neg notBacktick, if_neg fun both => notDollar both.1]

theorem escape_append_of_forall {text : Text} (plain : ∀ c ∈ text, c ≠ backtick ∧ c ≠ '$')
    (rest : Text) : escape (text ++ rest) = text ++ escape rest := by
  induction text with
  | nil => rfl
  | cons c text ih =>
    rcases List.forall_mem_cons.mp plain with ⟨here, later⟩
    rw [List.cons_append, escape_cons_of_ne here.1 here.2, ih later, List.cons_append]

theorem mem_escape {text : Text} {c : CodePoint} (member : c ∈ escape text) :
    c ∈ text ∨ c = '\\' := by
  have front : ∀ {d : CodePoint} {rest : Text}, (c ∈ escape rest → c ∈ rest ∨ c = '\\') →
      c ∈ d :: escape rest → c ∈ d :: rest ∨ c = '\\' := by
    intro d rest later member
    rcases List.mem_cons.mp member with same | member
    · exact Or.inl (same ▸ List.mem_cons_self)
    · exact (later member).imp_left (List.mem_cons_of_mem d)
  have escaped : ∀ {d : CodePoint} {rest : Text}, (c ∈ escape rest → c ∈ rest ∨ c = '\\') →
      c ∈ CodePoint.ofChar '\\' :: d :: escape rest → c ∈ d :: rest ∨ c = '\\' := by
    intro d rest later member
    rcases List.mem_cons.mp member with same | member
    · exact Or.inr same
    · exact front later member
  induction text with
  | nil => cases member
  | cons d rest ih =>
    by_cases isBacktick : d = backtick
    · subst isBacktick
      rw [escape_backtick] at member
      exact escaped ih member
    by_cases isDollar : d = '$'
    · subst isDollar
      by_cases brace : rest.head? = some (.ofChar '\x7b')
      · rw [escape_dollar_brace brace] at member
        exact escaped ih member
      · rw [escape_dollar brace] at member
        exact front ih member
    · rw [escape_cons_of_ne isBacktick isDollar] at member
      exact front ih member

theorem noBrace_escape_append {text rest : Text} (inside : text.head? ≠ some (.ofChar '\x7b'))
    (follows : NoBrace rest) : NoBrace (escape text ++ rest) := by
  cases text with
  | nil => exact follows
  | cons d text =>
    have other : d ≠ '\x7b' := fun brace => inside (congrArg some brace)
    by_cases isBacktick : d = backtick
    · rw [isBacktick, escape_backtick]
      exact ⟨'\\', rfl, by decide⟩
    by_cases isDollar : d = '$'
    · subst isDollar
      by_cases brace : text.head? = some (.ofChar '\x7b')
      · rw [escape_dollar_brace brace]
        exact ⟨'\\', rfl, by decide⟩
      · rw [escape_dollar brace]
        exact ⟨'$', rfl, by decide⟩
    · rw [escape_cons_of_ne isBacktick isDollar]
      exact ⟨d, rfl, other⟩

/-- What the second pass adds to a code point: a backslash to a backtick, and to a dollar
sign in front of a brace.  No escape of the first pass holds one of them. -/
theorem escape_escape_cons (c : CodePoint) (text : Text) :
    let later := escape (StringLiteral.escape text)
    let whole := escape (StringLiteral.escape (c :: text))
    ((c = backtick ∨ c = '$') ∧ whole = .ofChar '\\' :: c :: later) ∨
      (c = '$' ∧ (StringLiteral.escape text).head? ≠ some (.ofChar '\x7b') ∧ whole = c :: later) ∨
      (c ≠ backtick ∧ c ≠ '$' ∧ whole = StringLiteral.escapeCodePoint c ++ later) := by
  intro later whole
  by_cases isBacktick : c = backtick
  · subst isBacktick
    exact Or.inl ⟨Or.inl rfl, escape_backtick _⟩
  by_cases isDollar : c = '$'
  · subst isDollar
    by_cases brace : (StringLiteral.escape text).head? = some (.ofChar '\x7b')
    · exact Or.inl ⟨Or.inr rfl, escape_dollar_brace brace⟩
    · exact Or.inr (Or.inl ⟨rfl, brace, escape_dollar brace⟩)
  · have marks : ∀ mark ∈ StringLiteral.escapeMarks, mark ≠ backtick ∧ mark ≠ '$' := by decide
    have unmarked : ∀ d ∈ StringLiteral.escapeCodePoint c, d ≠ backtick ∧ d ≠ '$' := by
      intro d member
      rcases StringLiteral.mem_escapeCodePoint member with ⟨rfl, _⟩ | mark
      · exact ⟨isBacktick, isDollar⟩
      · exact marks d mark
    exact Or.inr (Or.inr ⟨isBacktick, isDollar, escape_append_of_forall unmarked _⟩)

/-- A text that is escaped for a template does not start with a brace if it has none at its
start. -/
theorem head?_escape_ne {text : Text} (inside : text.head? ≠ some (.ofChar '\x7b')) :
    (escape text).head? ≠ some (.ofChar '\x7b') := by
  intro brace
  have ends : NoBrace [backtick] := ⟨backtick, rfl, by decide⟩
  rcases noBrace_escape_append inside ends with ⟨c, starts, other⟩
  rw [List.head?_append, brace] at starts
  exact other (Option.some.inj starts).symm

/-- Escaped for strings first and for templates then, a text stands for itself in a
template. -/
theorem run_escape {rest : Text} (text : Text) (follows : NoBrace rest) :
    run backtick ⟨items, .content⟩ (escape (StringLiteral.escape text) ++ rest) =
      run backtick ⟨items ++ plain text, .content⟩ rest := by
  have notDelimiter : backtick ≠ '\\' := by decide
  induction text generalizing items with
  | nil =>
    change _ = run backtick ⟨items ++ [], .content⟩ rest
    rw [List.append_nil]
    rfl
  | cons c text ih =>
    rw [plain_cons c text, ← List.append_assoc, ← ih]
    rcases escape_escape_cons c text with
      ⟨mark, whole⟩ | ⟨rfl, noBrace, whole⟩ | ⟨notBacktick, notDollar, whole⟩
    · have known : c ≠ 'u' ∧ escaped? c = some (plain [c]) := by
        rcases mark with rfl | rfl <;> decide
      rw [whole]
      change run backtick _
        ([.ofChar '\\', c] ++ (escape (StringLiteral.escape text) ++ rest)) = _
      rw [run_append, run_escaped notDelimiter known.1 known.2]
    · rw [whole, List.cons_append, run_template_dollar (noBrace_escape_append noBrace follows)]
    · have itself : StringLiteral.shortEscape? c = none →
          readContent backtick items c = ⟨items ++ plain [c], .content⟩ := by
        intro noShort
        have notBackslash := StringLiteral.ne_of_shortEscape?_eq_none noShort '\\' (by decide)
        rw [readContent, if_neg notBacktick, if_neg notBackslash, if_pos rfl, if_neg notDollar]
      rw [whole, List.append_assoc, run_append, StringLiteral.run_escapeCodePoint notDelimiter itself]

theorem escape_eq_iff {first second : Text} :
    escape (StringLiteral.escape first) = escape (StringLiteral.escape second) ↔
      first.units16 = second.units16 := by
  have ends : NoBrace [backtick] := ⟨backtick, rfl, by decide⟩
  constructor
  · intro same
    have whole : run backtick ⟨[], .content⟩ (escape (StringLiteral.escape first) ++ [backtick]) =
        run backtick ⟨[] ++ plain first, .content⟩ [backtick] := run_escape first ends
    rw [same, run_escape second ends, run_delimiter, run_delimiter] at whole
    exact (plain_inj.mp (congrArg Reader.items whole)).symm
  · intro units
    rw [StringLiteral.escape_eq_iff.mpr units]

end TemplateLiteral

end HookScript.Script
