import HookScript.Proofs.Script.Escaping

/-!
# How the inside of a literal is spelled

Inside of a literal a code point stands for itself if it may stand there at all, and a
backslash starts an escape: a letter that stands for a code unit, or `u` with four
hexadecimal digits.  A spelling says which code points may stand for themselves, in
front of what, and which letters there are.

Reading by a spelling is stricter than an engine reads.  It takes no escape but the
listed ones, and a text that it reads to the end has nothing outside of its escapes
that could end the literal, and does not stop within an escape.
-/

namespace HookScript.Script

open Literal

/-- How the code units of a literal may be written. -/
structure Spelling where
  /-- Whether a code point may stand for itself in front of a rest. -/
  bare : CodePoint → Text → Bool
  /-- The letters that may follow a backslash, with the code units that they stand for. -/
  letters : List (CodePoint × Nat)

namespace Spelling

/-- The code units that a text stands for, if it is spelled that way. -/
def units? (spelling : Spelling) : Text → Option (List Nat)
  | [] => some []
  | c :: rest =>
    if c = '\\' then
      match rest with
      | [] => none
      | letter :: rest =>
        if letter = 'u' then
          match rest with
          | d₃ :: d₂ :: d₁ :: d₀ :: rest =>
            match Hex.unit? d₃ d₂ d₁ d₀ with
            | some unit => (units? spelling rest).map (unit :: ·)
            | none => none
          | _ => none
        else
          match spelling.letters.lookup letter with
          | some unit => (units? spelling rest).map (unit :: ·)
          | none => none
    else if spelling.bare c rest then (units? spelling rest).map (c.units16 ++ ·)
    else none

/-! ## Laws of reading -/

variable {spelling : Spelling}

theorem units?_cons {c : CodePoint} (other : c ≠ '\\') (rest : Text) :
    spelling.units? (c :: rest) =
      if spelling.bare c rest then (spelling.units? rest).map (c.units16 ++ ·) else none := by
  rw [units?.eq_def]
  exact if_neg other

theorem units?_letter {letter : CodePoint} (notUnit : letter ≠ 'u') (rest : Text) :
    spelling.units? ('\\' :: letter :: rest) =
      (spelling.letters.lookup letter).bind fun unit => (spelling.units? rest).map (unit :: ·) := by
  rw [units?.eq_def]
  simp only [if_true, if_neg notUnit]
  cases spelling.letters.lookup letter <;> rfl

theorem units?_escapeUnit {u : Nat} (bound : u < 0x10000) (rest : Text) :
    spelling.units? (StringLiteral.escapeUnit u ++ rest) = (spelling.units? rest).map (u :: ·) := by
  change spelling.units? ('\\' :: 'u' :: (Hex.unit .upper u ++ rest)) = _
  simp only [Hex.unit, List.cons_append, List.nil_append, units?, if_true,
    Hex.unit?_unit .upper bound]

theorem units?_escapeUnits {units : List Nat} (bound : ∀ u ∈ units, u < 0x10000) (rest : Text) :
    spelling.units? (units.flatMap StringLiteral.escapeUnit ++ rest) =
      (spelling.units? rest).map (units ++ ·) := by
  induction units with
  | nil => exact (congrFun Option.map_id _).symm
  | cons u units ih =>
    rcases List.forall_mem_cons.mp bound with ⟨here, later⟩
    rw [List.flatMap_cons, List.append_assoc, units?_escapeUnit here, ih later, Option.map_map]
    rfl

end Spelling

/-! ## String literals -/

namespace StringLiteral

/-- The spelling of a string literal between quotes of either kind. -/
def spelling : Spelling where
  bare c _ := c ≠ '\x22' ∧ c ≠ '\x27'
  letters := [('\x27', 0x27), ('\x22', 0x22), ('\\', 0x5C), ('/', 0x2F), ('b', 0x8), ('n', 0xA),
    ('t', 0x9), ('f', 0xC), ('r', 0xD)]

theorem lookup_of_shortEscape? {c : CodePoint} {letter : Char}
    (short : shortEscape? c = some letter) :
    spelling.letters.lookup (.ofChar letter) = some c.val := by
  have every : ∀ entry ∈ shortEscapes,
      spelling.letters.lookup (.ofChar entry.2) = some entry.1.val := by decide
  exact every (c, letter) (mem_shortEscapes short)

theorem units?_escapeCodePoint {other : Spelling} {c : CodePoint}
    (letters : ∀ letter, shortEscape? c = some letter →
      other.letters.lookup (.ofChar letter) = some c.val)
    {rest : Text} (itself : shortEscape? c = none → other.bare c rest = true) :
    other.units? (escapeCodePoint c ++ rest) = (other.units? rest).map (c.units16 ++ ·) := by
  unfold escapeCodePoint
  split
  next letter short =>
    have known := escaped?_of_shortEscape? short
    have notUnit : CodePoint.ofChar letter ≠ 'u' :=
      fun same => known.2.1 (CodePoint.ofChar_inj.mp same)
    have basic : c.units16 = [c.val] := if_pos (Nat.lt_of_le_of_lt known.2.2.2 (by decide))
    rw [List.cons_append, List.singleton_append, Spelling.units?_letter notUnit,
      letters letter short, basic]
    rfl
  next short =>
    split
    next => exact Spelling.units?_escapeUnits c.units16_lt rest
    next =>
      have notBackslash := ne_of_shortEscape?_eq_none short '\\' (by decide)
      rw [List.singleton_append, Spelling.units?_cons notBackslash, if_pos (itself short)]

theorem units?_escape (text : Text) : spelling.units? (escape text) = some text.units16 := by
  induction text with
  | nil => rfl
  | cons c text ih =>
    have itself : shortEscape? c = none → spelling.bare c (escape text) = true := by
      intro noShort
      have other := ne_of_shortEscape?_eq_none noShort
      exact decide_eq_true ⟨other '\x22' (by decide), other '\x27' (by decide)⟩
    rw [escape_cons, units?_escapeCodePoint (fun _ => lookup_of_shortEscape?) itself, ih,
      Text.units16_cons]
    rfl

/-- An escaped text is spelled with the short escapes of strings and the escapes of code
units, and stands for the code units of the text.  It is printable ASCII, or a delete
character.  Between quotes of either kind the literal ends with the closing quote and
not before.  So escaped texts are equal exactly if the code units of the texts are. -/
theorem reading_undoes_escape (text : Text) :
    spelling.units? (escape text) = some text.units16 ∧
    (∀ c ∈ escape text, 0x20 ≤ c.val ∧ c.val ≤ 0x7F) ∧
    (∀ after, read '\x22' (escape text ++ .ofChar '\x22' :: after) = some (plain text, after) ∧
      read '\x27' (escape text ++ .ofChar '\x27' :: after) = some (plain text, after)) ∧
    ∀ other, escape text = escape other ↔ text.units16 = other.units16 :=
  ⟨units?_escape text, fun _ => mem_escape,
    fun after => ⟨read_escape (Or.inl rfl) text after, read_escape (Or.inr rfl) text after⟩,
    fun _ => escape_eq_iff⟩

/-- A lone surrogate and the code points at the bounds of what is escaped, and how. -/
theorem reading_undoes_escape_bounds :
    let text : Text := [0x1F, 0x20, 0x7F, 0x80, 0xD800, 0xFFFF, 0x10000, 0x10FFFF].map .ofNat
    spelling.units? (escape text) =
        some [0x1F, 0x20, 0x7F, 0x80, 0xD800, 0xFFFF, 0xD800, 0xDC00, 0xDBFF, 0xDFFF] ∧
      .ofChar '\\' ∈ escape text ∧ 0x20 ≤ (CodePoint.ofChar '\\').val ∧
        (CodePoint.ofChar '\\').val ≤ 0x7F := by
  intro text
  rcases reading_undoes_escape text with ⟨units, printable, _⟩
  have units16 : text.units16 =
      [0x1F, 0x20, 0x7F, 0x80, 0xD800, 0xFFFF, 0xD800, 0xDC00, 0xDBFF, 0xDFFF] := by decide
  have backslash : .ofChar '\\' ∈ escape text := List.mem_cons_self
  rw [units16] at units
  exact ⟨units, backslash, printable _ backslash⟩

example : escape [.ofNat 0xD83D, .ofNat 0xDE00] = escape [.ofNat 0x1F600] := by decide

end StringLiteral

/-! ## Templates -/

namespace TemplateLiteral

/-- The spelling of a template without substitutions. -/
def spelling : Spelling where
  bare c rest := c ≠ backtick ∧ ¬(c = '$' ∧ rest.head? = some (.ofChar '\x7b'))
  letters := StringLiteral.spelling.letters ++ [(backtick, 0x60), ('$', 0x24)]

theorem units?_escape (text : Text) :
    spelling.units? (escape (StringLiteral.escape text)) = some text.units16 := by
  induction text with
  | nil => rfl
  | cons c text ih =>
    rw [Text.units16_cons]
    rcases escape_escape_cons c text with
      ⟨mark, whole⟩ | ⟨rfl, noBrace, whole⟩ | ⟨notBacktick, notDollar, whole⟩
    · have known : c ≠ 'u' ∧ spelling.letters.lookup c = some c.val ∧ c.units16 = [c.val] := by
        rcases mark with rfl | rfl <;> decide
      rw [whole, Spelling.units?_letter known.1, known.2.1, ih, known.2.2]
      rfl
    · have bare : spelling.bare '$' (escape (StringLiteral.escape text)) = true :=
        decide_eq_true ⟨by decide, fun brace => head?_escape_ne noBrace brace.2⟩
      rw [whole, Spelling.units?_cons (by decide), if_pos bare, ih]
      rfl
    · have letters : ∀ letter, StringLiteral.shortEscape? c = some letter →
          spelling.letters.lookup (.ofChar letter) = some c.val := by
        intro letter short
        rw [spelling, List.lookup_append, StringLiteral.lookup_of_shortEscape? short]
        rfl
      have bare : spelling.bare c (escape (StringLiteral.escape text)) = true :=
        decide_eq_true ⟨notBacktick, fun dollar => notDollar dollar.1⟩
      rw [whole, StringLiteral.units?_escapeCodePoint letters fun _ => bare, ih]
      rfl

/-- Escaped for strings first and for templates then, a text is spelled without a backtick
or the start of a substitution outside of its escapes, and stands for the code units of
the text.  Between backticks it is a literal of these code units alone, which ends with
the closing backtick and not before. -/
theorem reading_undoes_both_escapes (text : Text) :
    spelling.units? (escape (StringLiteral.escape text)) = some text.units16 ∧
    ∀ after, read backtick (escape (StringLiteral.escape text) ++ backtick :: after) =
      some (plain text, after) := by
  refine ⟨units?_escape text, fun after => ?_⟩
  have follows : NoBrace (backtick :: after) := ⟨backtick, rfl, by decide⟩
  have whole : run backtick ⟨[], .content⟩
      (escape (StringLiteral.escape text) ++ backtick :: after) = ⟨plain text, .closed after⟩ :=
    (run_escape text follows).trans (run_delimiter after)
  rw [Literal.read, whole]

end TemplateLiteral

end HookScript.Script
