import HookScript.Text.CodePoint

/-!
# Text

`Text` is a list of code points, so everything that holds of lists holds of
text.  A string literal may stand wherever a text is expected.  The operations
here are the few that names, types and messages are built with: decimal
numbers, splitting at a separator, and replacing one code point by another.
-/

namespace HookScript

/-- A sequence of code points. -/
abbrev Text := List CodePoint

namespace Text

def ofString (s : String) : Text := s.toList.map CodePoint.ofChar

instance : Coe String Text := ⟨ofString⟩

/-- The string with these code points.  There is none for a text with a lone
surrogate. -/
def toString? (text : Text) : Option String :=
  (text.mapM CodePoint.toChar?).map String.ofList

/-- The UTF-16 code units of a text, in order. -/
def units16 (text : Text) : List Nat := text.flatMap CodePoint.units16

@[simp]
theorem units16_cons (c : CodePoint) (rest : Text) :
    units16 (c :: rest) = c.units16 ++ rest.units16 :=
  List.flatMap_cons

/-- A number in decimal notation. -/
def ofNat (n : Nat) : Text := (Nat.toDigits 10 n).map CodePoint.ofChar

/-- An integer in decimal notation, with a minus sign if it is negative. -/
def ofInt : Int → Text
  | .ofNat n => ofNat n
  | .negSucc n => CodePoint.ofChar '-' :: ofNat (n + 1)

/-- What follows a given beginning of a text, if the text has it. -/
def dropPrefix? : (beginning text : Text) → Option Text
  | [], text => some text
  | _ :: _, [] => none
  | b :: beginning, c :: text => if b = c then dropPrefix? beginning text else none

/-- A beginning can be dropped exactly from the texts that continue it. -/
theorem dropPrefix?_eq_some {beginning text rest : Text} :
    dropPrefix? beginning text = some rest ↔ text = beginning ++ rest := by
  induction beginning generalizing text with
  | nil => simp only [dropPrefix?, Option.some.injEq, List.nil_append]
  | cons b beginning ih =>
    cases text with
    | nil => simp only [dropPrefix?, reduceCtorEq, List.cons_append]
    | cons c text =>
      by_cases same : b = c
      · simp only [dropPrefix?, same, if_true, ih, List.cons_append, List.cons.injEq, true_and]
      · simp only [dropPrefix?, if_neg same, reduceCtorEq, List.cons_append, List.cons.injEq,
          Ne.symm same, false_and]

/-! ## Separators -/

/-- The parts of a text between the occurrences of a separator.  There is
always at least one part. -/
def splitAtEach (separator : CodePoint) : Text → List Text
  | [] => [[]]
  | c :: rest =>
    if c = separator then [] :: splitAtEach separator rest
    else match splitAtEach separator rest with
      | [] => [[c]]
      | part :: parts => (c :: part) :: parts

theorem splitAtEach_ne_nil (separator : CodePoint) (text : Text) :
    splitAtEach separator text ≠ [] := by
  cases text with
  | nil => simp only [splitAtEach, ne_eq, List.cons_ne_nil, not_false_eq_true]
  | cons c rest =>
    unfold splitAtEach
    split
    · exact List.cons_ne_nil _ _
    · split <;> exact List.cons_ne_nil _ _

/-- The part after the last separator: the whole text if there is none. -/
def afterLast (separator : CodePoint) (text : Text) : Text :=
  (splitAtEach separator text).getLast (splitAtEach_ne_nil separator text)

/-- Every occurrence of one code point replaced by another. -/
def replaceEach (old new : CodePoint) (text : Text) : Text :=
  text.map fun c => if c = old then new else c

@[simp]
theorem replaceEach_append (old new : CodePoint) (first second : Text) :
    replaceEach old new (first ++ second) =
      replaceEach old new first ++ replaceEach old new second :=
  List.map_append

/-- Replacing forth and back gives the text again, if the code point that comes
in between does not occur in it. -/
theorem replaceEach_replaceEach {old new : CodePoint} {text : Text} (absent : new ∉ text) :
    replaceEach new old (replaceEach old new text) = text := by
  induction text with
  | nil => rfl
  | cons c rest ih =>
    rw [List.mem_cons, not_or] at absent
    have tail := ih absent.2
    simp only [replaceEach, List.map_cons] at tail ⊢
    rw [tail]
    by_cases here : c = old
    · simp only [here, if_true]
    · simp only [if_neg here, if_neg (Ne.symm absent.1)]

end Text

end HookScript
