import HookScript.Proofs.Script.Scope
import HookScript.Proofs.Script.Spelling

/-!
# Members that are read by name

Behind a dot a script names a member with letters, numerals, underscores, dollar
signs and escapes of UTF-16 code units, and does not start with a digit.  Anything
else ends the name, and what follows it is read as something else.

Escaping for a string literal is not made for this place.  It turns what is not
ASCII into escapes that may stand in a name.  But it leaves the marks of ASCII as
they are, and its short escapes mean nothing outside of quotes.  So an escaped text
is a name exactly if the text is spelled with code points that a name may hold.
-/

namespace HookScript.Script

/-! ## Reading -/

namespace MemberName

/-- The code units that a name stands for from some place in it on. -/
def units? : Text → Option (List Nat)
  | [] => some []
  | c :: rest =>
    if c = '\\' then
      match rest with
      | u :: d₃ :: d₂ :: d₁ :: d₀ :: rest =>
        if u = 'u' then
          match Hex.unit? d₃ d₂ d₁ d₀ with
          | some unit => (units? rest).map (unit :: ·)
          | none => none
        else none
      | _ => none
    else if isIdentifierPart c then (units? rest).map (c.units16 ++ ·)
    else none

/-- The code units that the name of a member stands for. -/
def read? : Text → Option (List Nat)
  | [] => none
  | c :: rest => if c.isDigit then none else units? (c :: rest)

end MemberName

/-- A declaration of a variable with the value of a field of an object. -/
structure FieldRead where
  variableName : Text
  object : Text
  /-- The code units that the name of the field stands for. -/
  field : List Nat
deriving DecidableEq

namespace FieldRead

/-- Reads an object, the name of a field, and that its value is asked for. -/
def ofPath? (variableName : Text) : List Text → Option FieldRead
  | [object, name, member] =>
    if isIdentifier variableName ∧ isIdentifier object ∧ member = Text.ofString "value" then
      (MemberName.read? name).map (⟨variableName, object, ·⟩)
    else none
  | _ => none

/-- Reads a line that declares a variable with the value of a field, and does nothing
else. -/
def ofLine? (line : Text) : Option FieldRead := do
  let variableName ← declaredName? line
  let value ← Text.dropPrefix? ("let " ++ variableName ++ " = ") line
  if value.getLast? = some (.ofChar ';') then
    ofPath? variableName (Text.splitAtEach '.' value.dropLast)
  else none

end FieldRead

/-! ## Escaped names -/

namespace MemberName

/-- A code point that the name of a member may hold once it is escaped.  It is escaped
as code units, or may stand in an identifier. -/
def Allowed (c : CodePoint) : Prop :=
  0x7F < c.val ∨ (c.val < 0x20 ∧ StringLiteral.shortEscape? c = none) ∨ isIdentifierPart c = true

instance : DecidablePred Allowed := fun _ => inferInstanceAs (Decidable (_ ∨ _))

end MemberName

/-- A text that can be read by name once it is escaped. -/
structure Nameable (text : Text) : Prop where
  codePoints : ∀ c ∈ text, MemberName.Allowed c
  start : ∃ c ∈ text.head?, ¬(0x30 ≤ c.val ∧ c.val ≤ 0x39)

namespace MemberName

/-- The spelling of a name, which has no short escapes. -/
def spelling : Spelling where
  bare c _ := isIdentifierPart c
  letters := []

theorem units?_eq_spelling (text : Text) : units? text = spelling.units? text := by
  fun_induction units? text with
  | case1 => rfl
  | case2 d₃ d₂ d₁ d₀ rest unit known ih => simp only [Spelling.units?, if_true, known, ih]
  | case3 d₃ d₂ d₁ d₀ rest unknown => simp only [Spelling.units?, if_true, unknown]
  | case4 letter d₃ d₂ d₁ d₀ rest notUnit =>
    rw [Spelling.units?_letter notUnit]
    rfl
  | case5 rest short =>
    cases rest with
    | nil => rfl
    | cons letter rest =>
      by_cases isUnit : letter = 'u'
      · rw [Spelling.units?.eq_def]
        simp only [if_true, if_pos isUnit]
        split
        next d₃ d₂ d₁ d₀ rest => exact (short letter d₃ d₂ d₁ d₀ rest rfl).elim
        next => rfl
      · rw [Spelling.units?_letter isUnit]
        rfl
  | case6 c rest other part ih =>
    rw [Spelling.units?_cons other, ih]
    exact (if_pos part).symm
  | case7 c rest other noPart =>
    rw [Spelling.units?_cons other]
    exact (if_neg noPart).symm

theorem not_isIdentifierPart_of_shortEscape? {c : CodePoint} {letter : Char}
    (short : StringLiteral.shortEscape? c = some letter) : isIdentifierPart c = false := by
  have every : ∀ entry ∈ StringLiteral.shortEscapes, isIdentifierPart entry.1 = false := by decide
  exact every (c, letter) (StringLiteral.mem_shortEscapes short)

/-- Names are read one code point after the other. -/
theorem units?_escapeCodePoint (c : CodePoint) (rest : Text) :
    spelling.units? (StringLiteral.escapeCodePoint c ++ rest) =
      if Allowed c then (spelling.units? rest).map (c.units16 ++ ·) else none := by
  unfold StringLiteral.escapeCodePoint
  split
  next letter short =>
    have known := StringLiteral.escaped?_of_shortEscape? short
    have noName : ¬Allowed c := by
      rintro (beyond | ⟨_, none⟩ | part)
      · exact absurd beyond (Nat.not_lt_of_le known.2.2.2)
      · rw [none] at short
        cases short
      · rw [not_isIdentifierPart_of_shortEscape? short] at part
        cases part
    have notUnit : CodePoint.ofChar letter ≠ 'u' :=
      fun same => known.2.1 (CodePoint.ofChar_inj.mp same)
    rw [if_neg noName]
    exact Spelling.units?_letter notUnit rest
  next short =>
    by_cases escaped : c.val < 0x20 ∨ 0x7F < c.val
    · have name : Allowed c := by
        rcases escaped with control | beyond
        · exact Or.inr (Or.inl ⟨control, short⟩)
        · exact Or.inl beyond
      rw [if_pos escaped, if_pos name, Spelling.units?_escapeUnits c.units16_lt]
    · have itself : Allowed c ↔ isIdentifierPart c = true := by
        constructor
        · rintro (beyond | ⟨control, _⟩ | part)
          · exact (escaped (Or.inr beyond)).elim
          · exact (escaped (Or.inl control)).elim
          · exact part
        · exact fun part => Or.inr (Or.inr part)
      have notBackslash := StringLiteral.ne_of_shortEscape?_eq_none short '\\' (by decide)
      rw [if_neg escaped, List.singleton_append, Spelling.units?_cons notBackslash]
      simp only [itself]
      rfl

theorem units?_escape (text : Text) : units? (StringLiteral.escape text) =
    if ∀ c ∈ text, Allowed c then some text.units16 else none := by
  rw [units?_eq_spelling]
  induction text with
  | nil => rfl
  | cons c text ih =>
    rw [StringLiteral.escape_cons, units?_escapeCodePoint, ih]
    by_cases here : Allowed c
    · by_cases later : ∀ d ∈ text, Allowed d
      · rw [if_pos here, if_pos later, if_pos (List.forall_mem_cons.mpr ⟨here, later⟩)]
        rfl
      · rw [if_pos here, if_neg later, if_neg fun every => later (List.forall_mem_cons.mp every).2]
        rfl
    · rw [if_neg here, if_neg fun every => here (List.forall_mem_cons.mp every).1]

/-- In ASCII only the decimal digits are digits. -/
theorem isDigit_iff_of_ascii {c : CodePoint} (ascii : c.val ≤ 0x7F) :
    c.isDigit = true ↔ 0x30 ≤ c.val ∧ c.val ≤ 0x39 := by
  have first : (0x30, 0x39) ∈ digitRanges := List.mem_cons_self
  have others : ∀ range ∈ digitRanges, range = (0x30, 0x39) ∨ 0x7F < range.1 := by decide
  constructor
  · intro digit
    rcases Ranges.exists_of_contains digit with ⟨range, listed, bounds⟩
    rcases others range listed with rfl | beyond
    · exact bounds
    · omega
  · intro bounds
    exact Ranges.contains_of_mem (by decide) first bounds.1 bounds.2

/-- An escape starts with a backslash, so that only what stands for itself is a digit. -/
theorem exists_head_escapeCodePoint (c : CodePoint) :
    ∃ d rest, StringLiteral.escapeCodePoint c = d :: rest ∧
      (d.isDigit = true ↔ 0x30 ≤ c.val ∧ c.val ≤ 0x39) := by
  have backslash : CodePoint.isDigit '\\' = false := by decide
  have escape : ∀ {decimal : Prop}, ¬decimal → (CodePoint.isDigit '\\' = true ↔ decimal) := by
    intro decimal notDecimal
    rw [backslash]
    exact ⟨nofun, fun isDecimal => (notDecimal isDecimal).elim⟩
  unfold StringLiteral.escapeCodePoint
  split
  next letter short =>
    refine ⟨'\\', _, rfl, escape fun decimal => ?_⟩
    have none := not_isIdentifierPart_of_shortEscape? short
    rw [isIdentifierPart_of_decimal decimal] at none
    cases none
  next =>
    by_cases escaped : c.val < 0x20 ∨ 0x7F < c.val
    · have units : ∃ u units, c.units16 = u :: units := by
        unfold CodePoint.units16
        split
        · exact ⟨_, _, rfl⟩
        · exact ⟨_, _, rfl⟩
      rcases units with ⟨u, units, isUnits⟩
      rw [if_pos escaped, isUnits, List.flatMap_cons]
      exact ⟨'\\', _, rfl, escape (by omega)⟩
    · rw [if_neg escaped]
      exact ⟨c, [], rfl, isDigit_iff_of_ascii (by omega)⟩

/-- An escaped text is a name exactly if every code point of it is allowed and the first
is no digit, and then it stands for the text. -/
theorem read?_escape_eq_some {text : Text} {units : List Nat} :
    read? (StringLiteral.escape text) = some units ↔ Nameable text ∧ units = text.units16 := by
  cases text with
  | nil =>
    constructor
    · nofun
    · rintro ⟨⟨_, _, none, _⟩, _⟩
      cases none
  | cons c text =>
    rcases exists_head_escapeCodePoint c with ⟨d, rest, starts, digit⟩
    have first : read? (StringLiteral.escape (c :: text)) =
        if d.isDigit then none else units? (StringLiteral.escape (c :: text)) := by
      rw [StringLiteral.escape_cons, starts]
      rfl
    rw [first, units?_escape]
    by_cases decimal : d.isDigit = true
    · rw [if_pos decimal]
      constructor
      · nofun
      · rintro ⟨⟨_, _, same, notDecimal⟩, _⟩
        cases same
        exact (notDecimal (digit.mp decimal)).elim
    · rw [if_neg decimal]
      by_cases every : ∀ d ∈ c :: text, Allowed d
      · have nameable : Nameable (c :: text) := ⟨every, c, rfl, fun bounds => decimal (digit.mpr bounds)⟩
        rw [if_pos every, Option.some.injEq, eq_comm]
        exact (and_iff_right nameable).symm
      · rw [if_neg every]
        exact ⟨nofun, fun parts => (every parts.1.codePoints).elim⟩

example : read? (StringLiteral.escape "a;b") = none := by decide

example : read? (StringLiteral.escape "a\u2028b") = some (Text.units16 "a\u2028b") := by
  decide +kernel

theorem nameable_of_isIdentifier {name : Text} (identifier : isIdentifier name = true) :
    Nameable name := by
  have parts := isNameCodePoint_of_isIdentifier identifier
  refine ⟨fun c member => Or.inr (Or.inr (parts c member)), ?_⟩
  cases name with
  | nil => cases identifier
  | cons c rest =>
    simp only [isIdentifier, Bool.and_eq_true] at identifier
    refine ⟨c, rfl, fun decimal => ?_⟩
    rw [not_isIdentifierStart_of_decimal decimal] at identifier
    cases identifier.1.1

theorem dot_not_mem_escape {text : Text} (nameable : Nameable text) :
    .ofChar '.' ∉ StringLiteral.escape text := by
  intro member
  rcases List.mem_flatMap.mp member with ⟨c, inText, inEscape⟩
  rcases StringLiteral.mem_escapeCodePoint inEscape with ⟨same, _⟩ | mark
  · have allowed := nameable.codePoints c inText
    rw [← same] at allowed
    exact absurd allowed (by decide)
  · exact absurd mark (by decide)

end MemberName

namespace FieldRead

theorem ofPath?_of_length_ne {variableName : Text} {path : List Text} (other : path.length ≠ 3) :
    ofPath? variableName path = none := by
  unfold ofPath?
  split
  next => exact absurd rfl other
  next => rfl

variable {variableName object : Text}

theorem ofLine?_let (declared : isIdentifier variableName = true) (value : Text) :
    ofLine? ("let " ++ variableName ++ " = " ++ (value ++ ";")) =
      ofPath? variableName (Text.splitAtEach '.' value) := by
  have ends : (value ++ Text.ofString ";").getLast? = some (.ofChar ';') := List.getLast?_concat
  have cut : (value ++ Text.ofString ";").dropLast = value := List.dropLast_concat
  rw [ofLine?, declaredName?_let declared]
  change (Text.dropPrefix? _ _ >>= _) = _
  rw [Text.dropPrefix?_eq_some.mpr rfl]
  change (if (value ++ Text.ofString ";").getLast? = _ then _ else _) = _
  rw [if_pos ends, cut]

theorem splitAtEach_path (identifier : isIdentifier object = true) (name : Text) :
    Text.splitAtEach '.' (object ++ "." ++ name ++ ".value") =
      object :: (Text.splitAtEach '.' name ++ [Text.ofString "value"]) := by
  have noDot : .ofChar '.' ∉ object := not_mem_of_isIdentifier identifier (by decide)
  have shape : object ++ Text.ofString "." ++ name ++ Text.ofString ".value" =
      object ++ .ofChar '.' :: (name ++ .ofChar '.' :: Text.ofString "value") := by
    simp only [List.append_assoc]
    rfl
  rw [shape, Text.splitAtEach_append_mark, Text.splitAtEach_append_mark,
    Text.splitAtEach_of_not_mem noDot]
  rfl

/-- A dot in a name makes the path longer. -/
theorem ofPath?_of_dot {name : Text} (dot : .ofChar '.' ∈ name) :
    ofPath? variableName (object :: (Text.splitAtEach '.' name ++ [Text.ofString "value"])) = none := by
  rcases List.append_of_mem dot with ⟨before, after, rfl⟩
  have first := List.length_pos_iff.mpr (Text.splitAtEach_ne_nil '.' before)
  have second := List.length_pos_iff.mpr (Text.splitAtEach_ne_nil '.' after)
  apply ofPath?_of_length_ne
  rw [Text.splitAtEach_append_mark, List.length_cons, List.length_append, List.length_append,
    List.length_singleton]
  omega

/-- A line that writes the key of a field behind a dot is read as a declaration exactly
if the key can be read by name, and then the field is the one with that key. -/
theorem ofLine?_escape_eq_some (declared : isIdentifier variableName = true)
    (identifier : isIdentifier object = true) {key : Text} {read : FieldRead} :
    ofLine? ("let " ++ variableName ++ " = " ++ object ++ "." ++ StringLiteral.escape key ++
        ".value;") = some read ↔
      Nameable key ∧ read = ⟨variableName, object, key.units16⟩ := by
  have shape : Text.ofString "let " ++ variableName ++ Text.ofString " = " ++ object ++
      Text.ofString "." ++ StringLiteral.escape key ++ Text.ofString ".value;" =
      Text.ofString "let " ++ variableName ++ Text.ofString " = " ++ (object ++ Text.ofString "." ++
        StringLiteral.escape key ++ Text.ofString ".value" ++ Text.ofString ";") := by
    simp only [List.append_assoc]
    rfl
  rw [shape, ofLine?_let declared, splitAtEach_path identifier]
  by_cases dot : .ofChar '.' ∈ StringLiteral.escape key
  · rw [ofPath?_of_dot dot]
    exact ⟨nofun, fun parts => (MemberName.dot_not_mem_escape parts.1 dot).elim⟩
  · have named : ofPath? variableName [object, StringLiteral.escape key, Text.ofString "value"] =
        (MemberName.read? (StringLiteral.escape key)).map (⟨variableName, object, ·⟩) :=
      if_pos ⟨declared, identifier, rfl⟩
    rw [Text.splitAtEach_of_not_mem dot, List.singleton_append, named, Option.map_eq_some_iff]
    constructor
    · rintro ⟨units, reads, rfl⟩
      rcases MemberName.read?_escape_eq_some.mp reads with ⟨nameable, rfl⟩
      exact ⟨nameable, rfl⟩
    · rintro ⟨nameable, rfl⟩
      exact ⟨key.units16, MemberName.read?_escape_eq_some.mpr ⟨nameable, rfl⟩, rfl⟩

end FieldRead

end HookScript.Script
