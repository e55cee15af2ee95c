import HookScript.CommandLine.Options
import HookScript.Proofs.Outcome
import Mathlib.Tactic.SplitIfs

/-!
# Groups of arguments

Arguments are read in groups: a flag with the value behind it, a switch, or a positional
argument, which names an input.  A value may look like anything, so an argument alone does
not tell what it is.  But the first argument of a group tells what the group is.  Hence
arguments split into groups in at most one way, from left to right, and whatever is read
without asking for help does split.

Every group but an input is read wherever it stands.  An input is refused if the ones
before it have left a file behind, and standard input leaves none.  So the first input that
is refused is the one behind the first that names a file.  `read_flatten_append` says this
of groups in front of any other arguments.
-/

namespace HookScript.CommandLine

/-! ## Kinds of arguments -/

theorem Setting.ofFlag?_of_switch {flag : Text} {switch : Switch}
    (isSwitch : Switch.ofFlag? flag = some switch) : Setting.ofFlag? flag = none := by
  unfold Switch.ofFlag? at isSwitch
  split_ifs at isSwitch with help copy verbose debug
  · rcases help with rfl | rfl <;> rfl
  · subst copy
    rfl
  · rcases verbose with rfl | rfl <;> rfl
  · subst debug
    rfl

theorem Setting.ofFlag?_of_plain {argument : Text} (plain : looksLikeFlag argument = false) :
    Setting.ofFlag? argument = none := by
  unfold Setting.ofFlag?
  split_ifs with className method field stopAt output
  · subst className
    cases plain
  · subst method
    cases plain
  · subst field
    cases plain
  · subst stopAt
    cases plain
  · rcases output with rfl | rfl <;> cases plain
  · rfl

theorem Switch.ofFlag?_of_plain {argument : Text} (plain : looksLikeFlag argument = false) :
    Switch.ofFlag? argument = none := by
  unfold Switch.ofFlag?
  split_ifs with help copy verbose debug
  · rcases help with rfl | rfl <;> cases plain
  · subst copy
    cases plain
  · rcases verbose with rfl | rfl <;> cases plain
  · subst debug
    cases plain
  · rfl

/-! ## Groups -/

/-- What a group of arguments is about. -/
inductive Destination where
  | setting (setting : Setting)
  | copy
  | logLevel
  | help
  | input
deriving DecidableEq

def Switch.destination : Switch → Destination
  | .help => .help
  | .copy => .copy
  | .verbose => .logLevel
  | .debug => .logLevel

/-- Arguments that are read together. -/
inductive Group where
  /-- A flag with the value that it takes. -/
  | assign (setting : Setting) (flag value : Text)
      (takesValue : Setting.ofFlag? flag = some setting)
  | turn (switch : Switch) (flag : Text) (isSwitch : Switch.ofFlag? flag = some switch)
      (noHelp : switch ≠ .help)
  | input (name : Text) (plain : looksLikeFlag name = false)

namespace Group

def arguments : Group → List Text
  | .assign _ flag value _ => [flag, value]
  | .turn _ flag _ _ => [flag]
  | .input name _ => [name]

/-- The arguments of groups, one group after the other. -/
def flatten (groups : List Group) : List Text := groups.flatMap arguments

def destination : Group → Destination
  | .assign setting _ _ _ => .setting setting
  | .turn switch _ _ _ => switch.destination
  | .input _ _ => .input

/-- What a group says: the value behind a flag, or else its only argument. -/
def text : Group → Text
  | .assign _ _ value _ => value
  | .turn _ flag _ _ => flag
  | .input name _ => name

/-- What groups say about something, in order. -/
def texts (destination : Destination) (groups : List Group) : List Text :=
  (groups.filter fun group => group.destination = destination).map text

/-- The inputs that are named, in order. -/
def inputs (groups : List Group) : List Text := texts .input groups

theorem flatten_cons (group : Group) (groups : List Group) :
    flatten (group :: groups) = group.arguments ++ flatten groups := List.flatMap_cons

theorem flatten_append (groups others : List Group) :
    flatten (groups ++ others) = flatten groups ++ flatten others := List.flatMap_append

theorem texts_append (destination : Destination) (groups others : List Group) :
    texts destination (groups ++ others) = texts destination groups ++ texts destination others := by
  simp only [texts, List.filter_append, List.map_append]

theorem inputs_cons_of_ne {group : Group} (noInput : group.destination ≠ .input)
    (groups : List Group) : inputs (group :: groups) = inputs groups := by
  simp only [inputs, texts, List.filter_cons, noInput, decide_false, Bool.false_eq_true, if_false]

theorem exists_of_destination_input {group : Group} (isInput : group.destination = .input) :
    ∃ name plain, group = .input name plain := by
  cases group with
  | assign => cases isInput
  | turn switch => cases switch <;> cases isInput
  | input name plain => exact ⟨name, plain, rfl⟩

/-! ### Splitting into groups -/

/-- The first argument of a group tells what the group is. -/
theorem eq_of_append {group other : Group} {rest others : List Text}
    (same : group.arguments ++ rest = other.arguments ++ others) :
    group = other ∧ rest = others := by
  cases group with
  | assign setting flag value takesValue =>
    cases other with
    | assign _ _ _ taken =>
      obtain ⟨rfl, later⟩ := List.cons.inj same
      obtain ⟨rfl, rfl⟩ := List.cons.inj later
      obtain rfl := Option.some.inj (takesValue.symm.trans taken)
      exact ⟨rfl, rfl⟩
    | turn _ _ isSwitch _ =>
      obtain ⟨rfl, _⟩ := List.cons.inj same
      cases takesValue.symm.trans (Setting.ofFlag?_of_switch isSwitch)
    | input _ plain =>
      obtain ⟨rfl, _⟩ := List.cons.inj same
      cases takesValue.symm.trans (Setting.ofFlag?_of_plain plain)
  | turn switch flag isSwitch noHelp =>
    cases other with
    | assign _ _ _ taken =>
      obtain ⟨rfl, _⟩ := List.cons.inj same
      cases taken.symm.trans (Setting.ofFlag?_of_switch isSwitch)
    | turn _ _ turned _ =>
      obtain ⟨rfl, rfl⟩ := List.cons.inj same
      obtain rfl := Option.some.inj (isSwitch.symm.trans turned)
      exact ⟨rfl, rfl⟩
    | input _ plain =>
      obtain ⟨rfl, _⟩ := List.cons.inj same
      cases isSwitch.symm.trans (Switch.ofFlag?_of_plain plain)
  | input name plain =>
    cases other with
    | assign _ _ _ taken =>
      obtain ⟨rfl, _⟩ := List.cons.inj same
      cases taken.symm.trans (Setting.ofFlag?_of_plain plain)
    | turn _ _ turned _ =>
      obtain ⟨rfl, _⟩ := List.cons.inj same
      cases turned.symm.trans (Switch.ofFlag?_of_plain plain)
    | input _ _ =>
      obtain ⟨rfl, rfl⟩ := List.cons.inj same
      exact ⟨rfl, rfl⟩

theorem flatten_inj {groups others : List Group} (same : flatten groups = flatten others) :
    groups = others := by
  induction groups generalizing others with
  | nil =>
    cases others with
    | nil => rfl
    | cons other _ => cases other <;> cases same
  | cons group groups ih =>
    cases others with
    | nil => cases group <;> cases same
    | cons other others =>
      rw [flatten_cons, flatten_cons] at same
      obtain ⟨rfl, later⟩ := eq_of_append same
      rw [ih later]

end Group

open HookScript.CommandLine.Group

namespace Options

variable {options : Options} {flag : Text} {rest : List Text}

/-! ## Reading one argument -/

theorem read_setting {setting : Setting} (takesValue : Setting.ofFlag? flag = some setting)
    (value : Text) :
    options.read (flag :: value :: rest) = (options.set setting value).read rest := by
  rw [read, takesValue]

theorem read_missingValue {setting : Setting} (takesValue : Setting.ofFlag? flag = some setting) :
    options.read [flag] = .error (.missingValue flag) := by
  rw [read, takesValue]

theorem read_help (standsAlone : Setting.ofFlag? flag = none)
    (isSwitch : Switch.ofFlag? flag = some .help) :
    options.read (flag :: rest) = .ok (options.turnOn .help) := by
  rw [read, standsAlone, isSwitch]

theorem read_switch {switch : Switch} (standsAlone : Setting.ofFlag? flag = none)
    (isSwitch : Switch.ofFlag? flag = some switch) (noHelp : switch ≠ .help) :
    options.read (flag :: rest) = (options.turnOn switch).read rest := by
  rw [read, standsAlone, isSwitch]
  cases switch with
  | help => exact absurd rfl noHelp
  | _ => rfl

theorem read_positional (standsAlone : Setting.ofFlag? flag = none)
    (noSwitch : Switch.ofFlag? flag = none) :
    options.read (flag :: rest) =
      if looksLikeFlag flag then .error (.unknownFlag flag)
      else if options.inputFile?.isSome then .error (.unexpectedArgument flag)
      else read
        { options with inputFile? := if flag = standardInputName then none else some flag } rest := by
  rw [read, standsAlone, noSwitch]

/-! ## Reading groups -/

/-- The options with what a group asks for. -/
def take (options : Options) : Group → Options
  | .assign setting _ value _ => options.set setting value
  | .turn switch _ _ _ => options.turnOn switch
  | .input name _ =>
    { options with inputFile? := if name = standardInputName then none else some name }

/-- Whether a group is one input too many. -/
def refuses (options : Options) (group : Group) : Bool :=
  group.destination = .input && options.inputFile?.isSome

/-- The first of some inputs that is refused.  If there is no file yet, it is the one
behind the first input that names a file. -/
def refused? (options : Options) (inputs : List Text) : Option Text :=
  if options.inputFile?.isSome then inputs.head?
  else (inputs.dropWhile fun name => name = standardInputName)[1]?

theorem read_group (group : Group) :
    options.read (group.arguments ++ rest) =
      if options.refuses group then .error (.unexpectedArgument group.text)
      else (options.take group).read rest := by
  cases group with
  | assign setting flag value takesValue => exact read_setting takesValue value
  | turn switch flag isSwitch noHelp =>
    have noInput : options.refuses (.turn switch flag isSwitch noHelp) = false := by
      cases switch <;> rfl
    rw [noInput]
    exact read_switch (Setting.ofFlag?_of_switch isSwitch) isSwitch noHelp
  | input name plain =>
    have reads : options.read (name :: rest) = _ :=
      read_positional (Setting.ofFlag?_of_plain plain) (Switch.ofFlag?_of_plain plain)
    rw [plain] at reads
    exact reads

theorem inputFile?_take_of_ne {group : Group} (noInput : group.destination ≠ .input) :
    (options.take group).inputFile? = options.inputFile? := by
  cases group with
  | assign setting => cases setting <;> rfl
  | turn switch => cases switch <;> rfl
  | input => exact absurd rfl noInput

theorem refused?_nil : options.refused? [] = none := by
  simp only [refused?, List.head?_nil, List.dropWhile_nil, List.getElem?_nil, ite_self]

theorem refused?_cons {name : Text} (plain : looksLikeFlag name = false) (inputs : List Text) :
    options.refused? (name :: inputs) =
      if options.inputFile?.isSome then some name
      else (options.take (.input name plain)).refused? inputs := by
  unfold refused?
  by_cases known : options.inputFile?.isSome = true
  · simp only [if_pos known, List.head?_cons]
  · by_cases standard : name = standardInputName
    · simp [take, standard, known]
    · simp [take, standard, known, List.head?_eq_getElem?]

/-- Groups are read one after the other, up to the first input that is refused. -/
theorem read_flatten_append (groups : List Group) (options : Options) (rest : List Text) :
    options.read (flatten groups ++ rest) =
      match options.refused? (inputs groups) with
      | some name => .error (.unexpectedArgument name)
      | none => (groups.foldl take options).read rest := by
  -- the options vary, since an input in front decides on the inputs behind it
  induction groups generalizing options with
  | nil =>
    have noInput : options.refused? (inputs []) = none := refused?_nil
    rw [noInput]
    rfl
  | cons group groups ih =>
    rw [flatten_cons, List.append_assoc, List.foldl_cons, read_group, ih]
    by_cases isInput : group.destination = .input
    · obtain ⟨name, plain, rfl⟩ := exists_of_destination_input isInput
      have next : options.refused? (inputs (.input name plain :: groups)) = _ :=
        refused?_cons plain (inputs groups)
      have refuses : options.refuses (.input name plain) = options.inputFile?.isSome := rfl
      rw [next, refuses]
      split <;> rfl
    · have passes : options.refuses group = false := by
        rw [refuses, decide_eq_false isInput, Bool.false_and]
      have same : options.refused? (inputs (group :: groups)) =
          (options.take group).refused? (inputs groups) := by
        rw [refused?, refused?, inputFile?_take_of_ne isInput, inputs_cons_of_ne isInput]
      rw [passes, same]
      rfl

/-- What is read without asking for help consists of groups. -/
theorem exists_groups_of_read {arguments : List Text} {after : Options}
    (reads : options.read arguments = .ok after) (noHelp : after.showHelp = false) :
    ∃ groups, flatten groups = arguments := by
  fun_induction read options arguments with
  | case1 => exact ⟨[], rfl⟩
  | case2 => cases reads
  | case3 _ flag setting takesValue value rest ih =>
    obtain ⟨groups, rfl⟩ := ih reads
    exact ⟨.assign setting flag value takesValue :: groups, rfl⟩
  | case4 =>
    cases reads
    cases noHelp
  | case5 _ flag rest switch goesOn isSwitch _ ih =>
    obtain ⟨groups, rfl⟩ := ih reads
    exact ⟨.turn switch flag isSwitch goesOn :: groups, rfl⟩
  | case6 => cases reads
  | case7 => cases reads
  | case8 _ name rest _ _ plain _ _ ih =>
    obtain ⟨groups, rfl⟩ := ih reads
    exact ⟨.input name (Bool.eq_false_iff.mpr plain) :: groups, rfl⟩

/-! ## Options that fit together -/

theorem eq_of_check_eq_ok {after : Options} (checked : options.check = .ok after) :
    options = after := by
  unfold check at checked
  split at checked
  · cases checked
  · split_ifs at checked
    exact Except.ok.inj checked

/-- The check changes nothing. -/
theorem read_of_parse_eq_ok {arguments : List Text} (parsed : parse arguments = .ok options) :
    default.read arguments = .ok options := by
  rcases Outcome.bind_eq_ok.mp parsed with ⟨given, reads, checked⟩
  split at checked
  · rw [reads]
    exact checked
  · rw [reads, eq_of_check_eq_ok checked]

theorem parse_of_read_eq_error {arguments : List Text} {error : UsageError}
    (refused : default.read arguments = .error error) : parse arguments = .error error := by
  rw [parse, refused]
  rfl

end Options

end HookScript.CommandLine
