import HookScript.Json.Reader
import HookScript.Json.Writer
import HookScript.Proofs.Outcome
import HookScript.Proofs.Text.Surrogates

/-!
# Reading quoted text

Text is quoted code point by code point, but it is read in two steps: first the
elements up to the closing quote, then what they spell.  Only the second step
joins surrogate pairs.  Hence every quoted text is read back except one that has
the two halves of a pair side by side, for they come back as one code point.
-/

namespace HookScript.Json

/-! ## Elements -/

/-- The elements that a code point is quoted as. -/
def piecesOf (c : CodePoint) : List Piece :=
  if (shortEscape? c).isSome ∨ (0x20 ≤ c.val ∧ c.val < 0x7F) then [.plain c]
  else c.units16.map .unit

variable {opening rest left : Text} {more : List Piece}

theorem pieces_plain {c : CodePoint} (notQuote : c ≠ '\x22') (notEscape : c ≠ '\\')
    (printable : 0x20 ≤ c.val) (read : pieces opening rest = .ok (more, left)) :
    pieces opening (c :: rest) = .ok (.plain c :: more, left) := by
  rw [pieces.eq_def]
  simp only [if_neg notQuote, if_neg notEscape, if_neg (Nat.not_lt_of_le printable), read]
  rfl

theorem pieces_escape {letter meaning : CodePoint} (notUnit : letter ≠ 'u')
    (known : escaped? letter = some meaning) (read : pieces opening rest = .ok (more, left)) :
    pieces opening ('\\' :: letter :: rest) = .ok (.plain meaning :: more, left) := by
  have notQuote : CodePoint.ofChar '\\' ≠ '\x22' := by decide
  rw [pieces.eq_def]
  simp only [if_neg notQuote, if_true, if_neg notUnit, known, read]
  rfl

/-- The escape of a code unit is read if anything follows it. -/
theorem pieces_unit {u : Nat} (bound : u < 0x10000)
    (read : pieces opening rest = .ok (more, left)) :
    pieces opening (Text.ofString "\\u" ++ Hex.unit .lower u ++ rest) =
      .ok (.unit u :: more, left) := by
  cases rest with
  | nil => cases read
  | cons next tail =>
    change pieces opening ('\\' :: 'u' :: _ :: _ :: _ :: _ :: next :: tail) = _
    have notQuote : CodePoint.ofChar '\\' ≠ '\x22' := by decide
    rw [pieces.eq_def]
    simp only [if_neg notQuote, if_true, Hex.unit?_unit .lower bound, read]
    rfl

theorem pieces_units {units : List Nat} (bound : ∀ u ∈ units, u < 0x10000)
    (read : pieces opening rest = .ok (more, left)) :
    pieces opening ((units.flatMap fun u => Text.ofString "\\u" ++ Hex.unit .lower u) ++ rest) =
      .ok (units.map .unit ++ more, left) := by
  induction units with
  | nil => exact read
  | cons u units ih =>
    have tail := ih fun v member => bound v (List.mem_cons_of_mem u member)
    rw [List.flatMap_cons, List.append_assoc]
    exact pieces_unit (bound u List.mem_cons_self) tail

/-- The reader knows every short escape that the writer uses. -/
theorem escaped?_of_shortEscape? {c : CodePoint} {letter : Char}
    (short : shortEscape? c = some letter) : escaped? letter = some c ∧ letter ≠ 'u' := by
  simp only [shortEscape?] at short
  repeat'
    split at short
    next same =>
      cases short
      rw [same]
      exact ⟨rfl, by decide⟩
  cases short

theorem shortEscape?_eq_none {c : CodePoint} (noShort : shortEscape? c = none) :
    c ≠ '\x22' ∧ c ≠ '\\' := by
  constructor
  · intro same
    rw [same] at noShort
    exact absurd noShort (by decide)
  · intro same
    rw [same] at noShort
    exact absurd noShort (by decide)

theorem pieces_quoteCodePoint (c : CodePoint) (read : pieces opening rest = .ok (more, left)) :
    pieces opening (quoteCodePoint c ++ rest) = .ok (piecesOf c ++ more, left) := by
  cases short : shortEscape? c with
  | some letter =>
    have known := escaped?_of_shortEscape? short
    simp only [quoteCodePoint, piecesOf, short, Option.isSome_some, true_or, if_true]
    exact pieces_escape (fun same => known.2 (CodePoint.ofChar_inj.mp same)) known.1 read
  | none =>
    have unescaped := shortEscape?_eq_none short
    by_cases printable : 0x20 ≤ c.val ∧ c.val < 0x7F
    · simp only [quoteCodePoint, piecesOf, short, printable, and_self, or_true, if_true]
      exact pieces_plain unescaped.1 unescaped.2 printable.1 read
    · simp only [quoteCodePoint, piecesOf, short, printable, Option.isSome_none,
        Bool.false_eq_true, or_self, if_false]
      exact pieces_units c.units16_lt read

/-- The elements of a quoted text are those of its code points, in order. -/
theorem pieces_quote (opening text rest : Text) :
    pieces opening (text.flatMap quoteCodePoint ++ .ofChar '\x22' :: rest) =
      .ok (text.flatMap piecesOf, rest) := by
  induction text with
  | nil =>
    rw [List.flatMap_nil, List.nil_append, pieces.eq_def]
    simp only [if_true, List.flatMap_nil]
  | cons c text ih =>
    rw [List.flatMap_cons, List.flatMap_cons, List.append_assoc]
    exact pieces_quoteCodePoint c ih

/-! ## What the elements spell -/

/-- A code unit stands for itself unless it forms a pair with the next one. -/
theorem joinPieces_unit {u : Nat} {elements : List Piece}
    (apart : ∀ v, elements.head? = some (.unit v) →
      ¬(CodePoint.isHighSurrogate u = true ∧ CodePoint.isLowSurrogate v = true)) :
    joinPieces (.unit u :: elements) = .ofNat u :: joinPieces elements := by
  cases elements with
  | nil => rw [joinPieces, joinPieces]
  | cons element elements =>
    cases element with
    | plain c => rw [joinPieces, joinPieces]
    | unit v =>
      rw [joinPieces, if_neg]
      rw [Bool.and_eq_true]
      exact apart v rfl

/-- The elements of a code point start with a low surrogate only if it is one. -/
theorem head?_piecesOf {c : CodePoint} {elements : List Piece} {v : Nat}
    (head : (piecesOf c ++ elements).head? = some (.unit v))
    (low : CodePoint.isLowSurrogate v = true) : c.val = v := by
  rw [piecesOf] at head
  split at head
  · cases head
  · rw [CodePoint.units16] at head
    split at head
    · cases head
      rfl
    · cases head
      have bound := c.isLt
      have range := CodePoint.isLowSurrogate_iff.mp low
      omega

theorem joinPieces_flatMap_piecesOf {text : Text} (joined : text.Joined) :
    joinPieces (text.flatMap piecesOf) = text := by
  induction text with
  | nil => rfl
  | cons c text ih =>
    have chain := List.isChain_cons.mp joined
    have tail := ih chain.2
    rw [List.flatMap_cons]
    -- An escape of two units is a pair by itself; a single unit must not pair up
    -- with the first unit of what follows.
    by_cases plain : (shortEscape? c).isSome ∨ (0x20 ≤ c.val ∧ c.val < 0x7F)
    · rw [piecesOf, if_pos plain, List.singleton_append, joinPieces, tail]
    · rw [piecesOf, if_neg plain, CodePoint.units16]
      by_cases basic : c.val < 0x10000
      · rw [if_pos basic, List.map_singleton, List.singleton_append, joinPieces_unit, tail,
          CodePoint.ofNat_val]
        intro v head pair
        cases text with
        | nil => cases head
        | cons d text =>
          rw [List.flatMap_cons] at head
          have same := head?_piecesOf head pair.2
          rw [← same] at pair
          exact chain.1 d rfl pair
      · rw [if_neg basic]
        have bound := c.isLt
        have high : CodePoint.isHighSurrogate (0xD800 + (c.val - 0x10000) / 0x400) = true :=
          CodePoint.isHighSurrogate_iff.mpr (by omega)
        have low : CodePoint.isLowSurrogate (0xDC00 + (c.val - 0x10000) % 0x400) = true :=
          CodePoint.isLowSurrogate_iff.mpr (by omega)
        simp only [List.map_cons, List.map_nil, List.cons_append, List.nil_append]
        rw [joinPieces, if_pos (Bool.and_eq_true_iff.mpr ⟨high, low⟩), tail,
          CodePoint.ofPair_units16 c (by omega)]

theorem quote_append (text rest : Text) : quote text ++ rest =
    .ofChar '\x22' :: (text.flatMap quoteCodePoint ++ .ofChar '\x22' :: rest) := by
  rw [quote, List.append_assoc, List.append_assoc]
  rfl

/-- A quoted text is read back, whatever follows it. -/
theorem string_quote {text : Text} (joined : text.Joined) (rest : Text) :
    string (quote text ++ rest) = .ok (text, rest) := by
  rw [quote_append, string, pieces_quote]
  simp only [Outcome.ok_bind, joinPieces_flatMap_piecesOf joined]
  rfl

end HookScript.Json
