import HookScript.Proofs.CommandLine.Groups

/-!
# How many inputs are accepted

The model is read from one input, a file or standard input.  An input behind one that
names a file is refused, whatever stands between the two and after them.  But an input
behind standard input is not, since standard input is forgotten as soon as it is read.

So all inputs that are accepted but the last are standard input, and among accepted
arguments there is more than one input exactly if standard input stands in front of
another one.
-/

namespace HookScript.CommandLine

open HookScript.CommandLine.Group

namespace Options

variable {options : Options} {groups : List Group}

/-- Without a file, inputs are accepted if all but the last are standard input. -/
theorem refused?_eq_none_iff (noFile : options.inputFile? = none) (inputs : List Text) :
    options.refused? inputs = none ↔ ∀ name ∈ inputs.dropLast, name = standardInputName := by
  have start : options.refused? inputs =
      (inputs.dropWhile fun name => name = standardInputName)[1]? := by
    rw [refused?, noFile]
    rfl
  rw [start]
  clear start
  induction inputs with
  | nil => simp
  | cons name rest ih =>
    cases rest with
    | nil =>
      by_cases standard : name = standardInputName <;> simp [standard]
    | cons next rest =>
      by_cases standard : name = standardInputName
      · simpa [standard] using ih
      · simp [standard]

theorem dropLast_inputs_of_parse (parsed : parse (flatten groups) = .ok options) :
    ∀ name ∈ (inputs groups).dropLast, name = standardInputName := by
  have noFile : default.inputFile? = none := rfl
  apply (refused?_eq_none_iff noFile (inputs groups)).mp
  have reads := read_of_parse_eq_ok parsed
  rw [← List.append_nil (flatten groups), read_flatten_append] at reads
  cases refused : default.refused? (inputs groups) with
  | none => rfl
  | some name =>
    rw [refused] at reads
    cases reads

end Options

/-- Arguments that are accepted without a call for help name at most one input exactly if
standard input does not stand in front of another one.  An input behind a file is refused,
whatever follows. -/
theorem inputs_le_one_iff (arguments : List Text) :
    (∀ options : Options, Options.parse arguments = .ok options → options.showHelp = false →
      ∃ groups, flatten groups = arguments ∧
        (∀ others, flatten others = arguments → others = groups) ∧
        (∀ name ∈ (inputs groups).dropLast, name = standardInputName) ∧
        ((inputs groups).length ≤ 1 ↔ standardInputName ∉ (inputs groups).dropLast)) ∧
    ∀ (groups : List Group) (first second : Text) (rest : List Text),
      flatten groups ++ second :: rest = arguments → inputs groups = [first] →
      first ≠ standardInputName → looksLikeFlag second = false →
      Options.parse arguments = .error (.unexpectedArgument second) := by
  constructor
  · intro options parsed noHelp
    obtain ⟨groups, rfl⟩ := Options.exists_groups_of_read (Options.read_of_parse_eq_ok parsed) noHelp
    have others := Options.dropLast_inputs_of_parse parsed
    refine ⟨groups, rfl, fun _ => flatten_inj, others, ?_⟩
    have count : (inputs groups).dropLast.length = (inputs groups).length - 1 :=
      List.length_dropLast
    constructor
    · intro few standard
      have some := List.length_pos_of_mem standard
      omega
    · intro absent
      have none : (inputs groups).dropLast = [] :=
        List.eq_nil_iff_forall_not_mem.mpr fun name listed => absent (others name listed ▸ listed)
      rw [none, List.length_nil] at count
      omega
  · rintro groups first second rest rfl only file plain
    have named : inputs (groups ++ [.input second plain]) = [first, second] := by
      rw [inputs, texts_append, ← inputs, only]
      rfl
    have reads := Options.read_flatten_append (groups ++ [.input second plain]) .default rest
    have refused : Options.default.refused? [first, second] = some second := by
      simp [Options.refused?, Options.default, file]
    rw [named, refused, flatten_append, List.append_assoc] at reads
    exact Options.parse_of_read_eq_error reads

/-- Standard input as the value of a flag is no input. -/
theorem inputs_le_one_iff_value :
    let groups : List Group :=
      [.input "model.json" rfl, .assign .className "--class" standardInputName rfl]
    (inputs groups).length ≤ 1 ∧ Options.parse (flatten groups ++ standardInputName :: ["--copy"]) =
      .error (.unexpectedArgument standardInputName) := by
  intro groups
  obtain ⟨split, _, unique, _, few⟩ := (inputs_le_one_iff (flatten groups)).1 _ rfl rfl
  rw [← unique groups rfl] at few
  have refused := (inputs_le_one_iff _).2 groups "model.json" standardInputName ["--copy"] rfl rfl
    (by decide) rfl
  exact ⟨few.mpr (by decide), refused⟩

/-- A file is accepted behind standard input, but standard input not behind a file. -/
theorem exists_second_input :
    ∃ (groups : List Group) (options : Options),
      flatten groups = ([standardInputName, "model.json", "--class", "A"] : List Text) ∧
      Options.parse (flatten groups) = .ok options ∧ options.showHelp = false ∧
      inputs groups = ([standardInputName, "model.json"] : List Text) ∧
      Options.parse ["model.json", standardInputName, "--class", "A"] =
        .error (.unexpectedArgument standardInputName) :=
  ⟨[.input standardInputName rfl, .input "model.json" rfl, .assign .className "--class" "A" rfl], _,
    rfl, rfl, rfl, rfl, rfl⟩

end HookScript.CommandLine
