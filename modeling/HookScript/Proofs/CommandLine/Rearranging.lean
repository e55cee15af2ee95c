import HookScript.Proofs.CommandLine.Groups
import Mathlib.Data.List.Induction

/-!
# Rearranging arguments

What arguments ask for can be told without reading them in order: an option has the value
of the last group that is about it, and the log shows what the most verbose switch asks for.
So only groups that are about the same thing have to keep their order.  All others may be
moved past each other, and the arguments are then understood in the same way, or refused for
the same reason.
-/

namespace HookScript.CommandLine

open HookScript.CommandLine.Group

namespace Group

/-- The switch that a group turns on. -/
def switch? : Group → Option Switch
  | .assign _ _ _ _ => none
  | .turn switch _ _ _ => some switch
  | .input _ _ => none

def isOn (switch : Switch) (groups : List Group) : Bool :=
  groups.any fun group => group.switch? = some switch

/-- Groups in another order, in which groups about the same thing follow each other as
before. -/
structure Rearranged (groups others : List Group) : Prop where
  perm : groups.Perm others
  order : ∀ destination, (groups.filter fun group => group.destination = destination) =
    others.filter fun group => group.destination = destination

theorem Rearranged.texts_eq {groups others : List Group} (rearranged : Rearranged groups others)
    (destination : Destination) : texts destination groups = texts destination others :=
  congrArg (List.map text) (rearranged.order destination)

theorem Rearranged.isOn_eq {groups others : List Group} (rearranged : Rearranged groups others)
    (switch : Switch) : isOn switch groups = isOn switch others := rearranged.perm.any_eq

theorem texts_append_singleton (about : Destination) (groups : List Group) (group : Group) :
    texts about (groups ++ [group]) =
      if group.destination = about then texts about groups ++ [group.text]
      else texts about groups := by
  rw [texts_append]
  split
  next here => simp [texts, here]
  next elsewhere => simp [texts, elsewhere]

theorem isOn_append_singleton (switch : Switch) (groups : List Group) (group : Group) :
    isOn switch (groups ++ [group]) = (isOn switch groups || decide (group.switch? = some switch)) := by
  simp only [isOn, List.any_append, List.any_cons, List.any_nil, Bool.or_false]

end Group

namespace Options

def ofGroups (groups : List Group) : Options where
  className? := (texts (.setting .className) groups).getLast?
  method? := (texts (.setting .method) groups).getLast?
  field? := (texts (.setting .field) groups).getLast?
  stopAt? := (texts (.setting .stopAt) groups).getLast?
  copy := isOn .copy groups
  logLevel :=
    if isOn .debug groups then .debug else if isOn .verbose groups then .info else .warning
  inputFile? := (inputs groups).getLast?.filter fun name => name ≠ standardInputName
  outputFile? := (texts (.setting .outputFile) groups).getLast?
  showHelp := false

variable {groups others : List Group}

/-- A group adds what it asks for to what the groups before it have asked for. -/
theorem ofGroups_append_singleton (groups : List Group) (group : Group) :
    ofGroups (groups ++ [group]) = (ofGroups groups).take group := by
  simp only [ofGroups, inputs, texts_append_singleton, isOn_append_singleton]
  cases group with
  | assign setting flag value takesValue =>
    cases setting <;> simp [destination, text, switch?, take, set]
  | turn switch flag isSwitch noHelp =>
    cases switch with
    | help => exact absurd rfl noHelp
    | copy => simp [destination, Switch.destination, switch?, take, turnOn]
    | debug => simp [destination, Switch.destination, switch?, take, turnOn]
    | verbose =>
      cases isOn .debug groups <;> cases isOn .verbose groups <;>
        simp [destination, Switch.destination, switch?, take, turnOn, LogLevel.moreVerbose,
          LogLevel.rank]
  | input name plain =>
    by_cases standard : name = standardInputName <;>
      simp [destination, text, switch?, take, standard]

theorem foldl_take_default (groups : List Group) : groups.foldl take default = ofGroups groups := by
  induction groups using List.reverseRecOn with
  | nil => rfl
  | append_singleton groups group ih =>
    rw [List.foldl_append, ih, ofGroups_append_singleton]
    rfl

theorem ofGroups_of_rearranged (rearranged : Rearranged groups others) :
    ofGroups groups = ofGroups others := by
  simp only [ofGroups, inputs, rearranged.texts_eq, rearranged.isOn_eq]

theorem read_flatten (groups : List Group) :
    default.read (flatten groups) =
      match default.refused? (inputs groups) with
      | some name => .error (.unexpectedArgument name)
      | none => .ok (ofGroups groups) := by
  have reads := read_flatten_append groups default []
  rw [List.append_nil, foldl_take_default] at reads
  exact reads

/-- Arguments that are rearranged are refused for the same reason, or ask for the same. -/
theorem parse_of_rearranged (rearranged : Rearranged groups others) :
    parse (flatten groups) = parse (flatten others) := by
  have same : inputs groups = inputs others := rearranged.texts_eq .input
  rw [parse, parse, read_flatten, read_flatten, same, ofGroups_of_rearranged rearranged]

end Options

/-- Arguments that are understood without a call for help split into groups in one way.
Every option has the value of the last group about it, and no rearrangement makes a
difference. -/
theorem options_independent_of_order {arguments : List Text} {options : Options}
    (parsed : Options.parse arguments = .ok options) (noHelp : options.showHelp = false) :
    ∃ groups, flatten groups = arguments ∧
      (∀ others, flatten others = arguments → others = groups) ∧
      options = Options.ofGroups groups ∧
      ∀ others, Rearranged groups others → Options.parse (flatten others) = .ok options := by
  have reads := Options.read_of_parse_eq_ok parsed
  obtain ⟨groups, rfl⟩ := Options.exists_groups_of_read reads noHelp
  refine ⟨groups, rfl, fun _ => flatten_inj, ?_, ?_⟩
  · rw [Options.read_flatten] at reads
    split at reads
    · cases reads
    · exact (Except.ok.inj reads).symm
  · intro others rearranged
    rw [← Options.parse_of_rearranged rearranged]
    exact parsed

/-- The switch that is the value of a flag moves with the flag. -/
theorem options_independent_of_order_values :
    let options : Options :=
      ⟨some "Foo", none, none, none, false, .info, some "model.json", none, false⟩
    Options.parse ["--class", "--copy", "--class", "Foo", "-", "model.json", "-v"] = .ok options ∧
      Options.parse ["-", "model.json", "-v", "--class", "--copy", "--class", "Foo"] =
        .ok options := by
  intro options
  have parsed :
      Options.parse ["--class", "--copy", "--class", "Foo", "-", "model.json", "-v"] = .ok options :=
    rfl
  let classNames : List Group :=
    [.assign .className "--class" "--copy" rfl, .assign .className "--class" "Foo" rfl]
  let others : List Group :=
    [.input "-" rfl, .input "model.json" rfl, .turn .verbose "-v" rfl nofun]
  obtain ⟨groups, _, unique, _, moved⟩ := options_independent_of_order parsed rfl
  have order : Rearranged (classNames ++ others) (others ++ classNames) := by
    refine ⟨List.perm_append_comm, fun destination => ?_⟩
    cases destination with
    | setting setting => cases setting <;> rfl
    | _ => rfl
  rw [← unique (classNames ++ others) rfl] at moved
  exact ⟨parsed, moved (others ++ classNames) order⟩

end HookScript.CommandLine
