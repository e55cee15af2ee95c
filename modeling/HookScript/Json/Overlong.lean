import HookScript.Json.Reader

/-!
# Integers that are too long

A reader may refuse to take integers with more than so many digits, although they
belong to the language.  It comes to such an integer only if it finds nothing wrong
with the text in front of it.  That text then breaks off where a value should start, so
what is in front of an integer can be told by reading it alone.
-/

namespace HookScript.Json

/-- Whether nothing is wrong with a text but that it ends where a value should start. -/
def awaitsValue (text : Text) : Bool :=
  match parse text with
  | .error fault => fault = ⟨.noValue, 0⟩
  | .ok _ => false

def unsigned (text : Text) : Text :=
  if text.head? = some (.ofChar '-') then text.tail else text

/-- Whether neither a fraction nor an exponent stands in front of a text. -/
def endsInteger (rest : Text) : Bool :=
  (fraction rest).1.isEmpty && (exponent? (fraction rest).2).1.isNone

/-- How many digits the integer has that a text begins with. -/
def integerLength? (text : Text) : Option Nat :=
  ((integral? (unsigned text)).filter fun part => endsInteger part.2).map fun part => part.1.length

/-- A text in which a reader comes to an integer with more digits than a limit. -/
def Overlong (limit : Nat) (text : Text) : Prop :=
  ∃ before rest count, before ++ rest = text ∧ awaitsValue before = true ∧
    integerLength? rest = some count ∧ limit < count

/-- The number of digits of the first integer with too many of them from some place on.  The
text in front of the place is given backwards. -/
def overlongFrom? (limit : Nat) (before : Text) : Text → Option Nat
  | [] => none
  | c :: rest =>
    match (integerLength? (c :: rest)).filter fun count =>
        limit < count && awaitsValue before.reverse with
    | some count => some count
    | none => overlongFrom? limit (c :: before) rest

def overlong? (limit : Nat) (text : Text) : Option Nat := overlongFrom? limit [] text

/-! ## Integers of a document -/

variable {limit : Nat} {text : Text}

theorem isInteger_number?_iff (negative : Bool) :
    (∃ value rest, number? negative text = some (.int value, rest)) ↔
      ((integral? text).filter fun part => endsInteger part.2).isSome = true := by
  unfold number?
  cases integral? text with
  | none => exact ⟨nofun, nofun⟩
  | some part =>
    obtain ⟨whole, rest⟩ := part
    rw [Option.filter_some, endsInteger]
    simp only [Option.bind_eq_bind, Option.bind_some]
    split
    next => exact ⟨fun _ => rfl, fun _ => ⟨_, _, rfl⟩⟩
    next =>
      constructor
      · rintro ⟨_, _, impossible⟩
        cases impossible
      · exact nofun

theorem not_integer_of_word? {value : Json} {rest : Text} (isWord : word? text = some (value, rest)) :
    integerLength? text = none ∧ ∀ number, value ≠ .int number := by
  obtain ⟨⟨spelling, meaning⟩, listed, found⟩ := List.exists_of_findSome?_eq_some isWord
  obtain ⟨left, begins, same⟩ := Option.map_eq_some_iff.mp found
  obtain ⟨rfl, rfl⟩ := Prod.mk.inj same
  rw [Text.dropPrefix?_eq_some] at begins
  subst begins
  have each : ∀ word ∈ words,
      integerLength? (word.1 ++ left) = none ∧ ∀ number, word.2 ≠ .int number := by
    simp only [words, List.forall_mem_cons]
    exact ⟨⟨rfl, nofun⟩, ⟨rfl, nofun⟩, ⟨rfl, nofun⟩, ⟨rfl, nofun⟩, ⟨rfl, nofun⟩, ⟨rfl, nofun⟩,
      nofun⟩
  exact each _ listed

theorem scalar_of_word?_eq_none (noWord : word? text = none) :
    ∃ negative, scalar text =
      match number? negative (unsigned text) with
      | some reading => .ok reading
      | none => fail .noValue text := by
  unfold scalar
  rw [noWord]
  cases text with
  | nil => exact ⟨false, rfl⟩
  | cons sign rest =>
    by_cases minus : sign = '-'
    · subst minus
      exact ⟨true, rfl⟩
    · have other : unsigned (sign :: rest) = sign :: rest :=
        if_neg fun same => minus (Option.some.inj same)
      have reading : (if sign = '-' then number? true rest else number? false (sign :: rest)) =
          number? false (unsigned (sign :: rest)) := by
        rw [if_neg minus, other]
      exact ⟨false, congrArg (fun reading? : Option (Json × Text) =>
        match reading? with
        | some reading => Except.ok reading
        | none => fail .noValue (sign :: rest)) reading⟩

/-- A text begins with an integer exactly if a reader takes one from there. -/
theorem isSome_integerLength?_iff :
    (integerLength? text).isSome = true ↔ ∃ value rest, scalar text = .ok (.int value, rest) := by
  cases isWord : word? text with
  | some reading =>
    obtain ⟨value, rest⟩ := reading
    obtain ⟨none, notInteger⟩ := not_integer_of_word? isWord
    unfold scalar
    rw [none, isWord]
    constructor
    · exact nofun
    · rintro ⟨number, _, same⟩
      cases same
      exact absurd rfl (notInteger number)
  | none =>
    obtain ⟨negative, reads⟩ := scalar_of_word?_eq_none isWord
    rw [integerLength?, Option.isSome_map, ← isInteger_number?_iff negative, reads]
    constructor
    · rintro ⟨value, rest, found⟩
      rw [found]
      exact ⟨value, rest, rfl⟩
    · rintro ⟨value, rest, same⟩
      split at same
      next found =>
        cases same
        exact ⟨value, rest, found⟩
      next => cases same

/-! ## Integers with too many digits -/

theorem overlongFrom?_of_integer {before rest : Text} {count : Nat}
    (found : integerLength? rest = some count) (long : limit < count)
    (awaits : awaitsValue before.reverse = true) : overlongFrom? limit before rest = some count := by
  cases rest with
  | nil => cases found
  | cons c rest =>
    unfold overlongFrom?
    rw [found, Option.filter_some, awaits, decide_eq_true long]
    rfl

theorem isSome_overlongFrom?_iff (before rest : Text) :
    (overlongFrom? limit before rest).isSome = true ↔
      ∃ front back count, front ++ back = rest ∧ awaitsValue (before.reverse ++ front) = true ∧
        integerLength? back = some count ∧ limit < count := by
  induction rest generalizing before with
  | nil =>
    constructor
    · exact nofun
    · rintro ⟨front, back, count, split, _, found, _⟩
      rw [(List.append_eq_nil_iff.mp split).2] at found
      cases found
  | cons c rest ih =>
    rw [overlongFrom?]
    cases here : (integerLength? (c :: rest)).filter fun count =>
        limit < count && awaitsValue before.reverse with
    | some count =>
      obtain ⟨found, reached⟩ := Option.filter_eq_some_iff.mp here
      rw [Bool.and_eq_true, decide_eq_true_eq] at reached
      refine ⟨fun _ => ⟨[], c :: rest, count, rfl, ?_, found, reached.1⟩, fun _ => rfl⟩
      rw [List.append_nil]
      exact reached.2
    | none =>
      dsimp only
      rw [ih, List.reverse_cons]
      constructor
      · rintro ⟨front, back, count, rfl, awaits, found, long⟩
        rw [List.append_assoc] at awaits
        exact ⟨c :: front, back, count, rfl, awaits, found, long⟩
      · rintro ⟨front, back, count, split, awaits, found, long⟩
        cases front with
        | nil =>
          rw [List.append_nil] at awaits
          rw [List.nil_append] at split
          subst split
          rw [found, Option.filter_some, awaits, decide_eq_true long] at here
          cases here
        | cons d front =>
          obtain ⟨rfl, rfl⟩ := List.cons.inj split
          refine ⟨front, back, count, rfl, ?_, found, long⟩
          rw [List.append_assoc]
          exact awaits

theorem isSome_overlong?_iff : (overlong? limit text).isSome = true ↔ Overlong limit text :=
  isSome_overlongFrom?_iff [] text

instance decidableOverlong : Decidable (Overlong limit text) :=
  decidable_of_iff _ isSome_overlong?_iff

end HookScript.Json
