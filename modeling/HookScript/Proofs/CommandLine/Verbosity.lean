import HookScript.CommandLine.Run
import HookScript.Proofs.CommandLine.Groups

/-!
# Asking for more of the log

The flags for the log may be put anywhere among the arguments where a flag is read, as
often as one likes.  A run then does the same as before, whether it goes well or fails, and
shows at least as much of its log.

The arguments are read from left to right with the options that were read until then.  The
flags only lower the log level, and nothing that is read later depends on the level.  So
if one reading has come to the same options as another but for a lower level, it still has
after a flag for the log, and also after any other argument that both of them read.
-/

namespace HookScript.CommandLine

/-- The flags for the log. -/
def logFlags : List Text := ["-v", "--verbose", "--debug"]

/-- Arguments, and the same arguments with flags for the log put in.  Between a flag and the
value that it takes, there is no place for another flag. -/
inductive Louder : List Text → List Text → Prop where
  | nil : Louder [] []
  | insert {flag : Text} {arguments more : List Text} (forLog : flag ∈ logFlags)
      (rest : Louder arguments more) : Louder arguments (flag :: more)
  | setting {flag value : Text} {arguments more : List Text} {setting : Setting}
      (takesValue : Setting.ofFlag? flag = some setting) (rest : Louder arguments more) :
    Louder (flag :: value :: arguments) (flag :: value :: more)
  | missingValue {flag : Text} {setting : Setting}
      (takesValue : Setting.ofFlag? flag = some setting) : Louder [flag] [flag]
  | argument {argument : Text} {arguments more : List Text}
      (standsAlone : Setting.ofFlag? argument = none) (rest : Louder arguments more) :
    Louder (argument :: arguments) (argument :: more)

namespace LogLevel

theorem rank_moreVerbose (first second : LogLevel) :
    (first.moreVerbose second).rank = min first.rank second.rank := by
  rw [moreVerbose]
  split
  next lower => exact (Nat.min_eq_right (Nat.le_of_lt lower)).symm
  next higher => exact (Nat.min_eq_left (Nat.le_of_not_lt higher)).symm

theorem rank_debug_le (level : LogLevel) : debug.rank ≤ level.rank := by
  cases level <;> decide

end LogLevel

namespace Options

variable {options other : Options} {flag : Text} {rest : List Text}

/-- Options that ask for the same as others, and perhaps for more of the log. -/
structure Raised (options other : Options) : Prop where
  same : other = { options with logLevel := other.logLevel }
  level : other.logLevel.rank ≤ options.logLevel.rank

/-! ## Reading one argument -/

/-- A flag for the log is read as such, and lowers the level at most. -/
theorem Raised.read_logFlag (raised : options.Raised other) (forLog : flag ∈ logFlags) :
    ∃ louder, options.Raised louder ∧ other.read (flag :: rest) = louder.read rest := by
  have isSwitch : Switch.ofFlag? flag = some .verbose ∨ Switch.ofFlag? flag = some .debug := by
    revert flag
    decide
  have standsAlone : Setting.ofFlag? flag = none := by
    revert flag
    decide
  rcases isSwitch with verbose | debug
  · refine ⟨other.turnOn .verbose, ⟨?_, ?_⟩, read_switch standsAlone verbose nofun⟩
    · rw [raised.same]
      rfl
    · change (other.logLevel.moreVerbose .info).rank ≤ options.logLevel.rank
      rw [LogLevel.rank_moreVerbose]
      exact Nat.le_trans (Nat.min_le_left ..) raised.level
  · refine ⟨other.turnOn .debug, ⟨?_, LogLevel.rank_debug_le _⟩, read_switch standsAlone debug nofun⟩
    rw [raised.same]
    rfl

theorem Raised.set (raised : options.Raised other) (setting : Setting) (value : Text) :
    (options.set setting value).Raised (other.set setting value) := by
  rw [raised.same]
  cases setting <;> exact ⟨rfl, raised.level⟩

theorem Raised.turnOn (raised : options.Raised other) (switch : Switch) :
    (options.turnOn switch).Raised (other.turnOn switch) := by
  rw [raised.same]
  cases switch with
  | help => exact ⟨rfl, raised.level⟩
  | copy => exact ⟨rfl, raised.level⟩
  | debug => exact ⟨rfl, Nat.le_refl _⟩
  | verbose =>
    refine ⟨rfl, ?_⟩
    change (other.logLevel.moreVerbose .info).rank ≤ (options.logLevel.moreVerbose .info).rank
    have lower := raised.level
    rw [LogLevel.rank_moreVerbose, LogLevel.rank_moreVerbose]
    omega

theorem Raised.withInputFile (raised : options.Raised other) (file? : Option Text) :
    Raised { options with inputFile? := file? } { other with inputFile? := file? } := by
  rw [raised.same]
  exact ⟨rfl, raised.level⟩

theorem Raised.inputFile_eq (raised : options.Raised other) :
    options.inputFile? = other.inputFile? := by
  rw [raised.same]

theorem Raised.showHelp_eq (raised : options.Raised other) : options.showHelp = other.showHelp := by
  rw [raised.same]

/-! ## Reading all arguments -/

/-- Arguments that are refused for the same reason, or understood in the same way but for the
log. -/
inductive Agree : Except UsageError Options → Except UsageError Options → Prop where
  | refused (error : UsageError) : Agree (.error error) (.error error)
  | understood {options other : Options} (raised : options.Raised other) :
    Agree (.ok options) (.ok other)

theorem Agree.bind {first second : Except UsageError Options}
    {next : Options → Except UsageError Options} (agree : Agree first second)
    (later : ∀ options other : Options, options.Raised other →
      Agree (next options) (next other)) : Agree (first >>= next) (second >>= next) := by
  cases agree with
  | refused error => exact .refused error
  | understood raised => exact later _ _ raised

/-- The log level is not checked. -/
theorem Raised.agree_check (raised : options.Raised other) : Agree options.check other.check := by
  rw [raised.same]
  unfold check
  dsimp only
  split
  · exact .refused _
  · split
    · exact .refused _
    · split
      · exact .refused _
      · exact .understood ⟨rfl, raised.level⟩

end Options

open Options

theorem Louder.agree_read {arguments more : List Text} (louder : Louder arguments more)
    {options other : Options} (raised : options.Raised other) :
    Agree (options.read arguments) (other.read more) := by
  -- the options of both readings vary, since a flag that was put in is read by one of them
  induction louder generalizing options other with
  | nil => exact .understood raised
  | insert forLog _ ih =>
    rcases raised.read_logFlag forLog with ⟨louder, raised, reads⟩
    rw [reads]
    exact ih raised
  | setting takesValue _ ih =>
    rw [read_setting takesValue, read_setting takesValue]
    exact ih (raised.set _ _)
  | missingValue takesValue =>
    rw [read_missingValue takesValue, read_missingValue takesValue]
    exact .refused _
  | @argument argument arguments more standsAlone _ ih =>
    cases isSwitch : Switch.ofFlag? argument with
    | some switch =>
      by_cases help : switch = .help
      · subst help
        rw [read_help standsAlone isSwitch, read_help standsAlone isSwitch]
        exact .understood (raised.turnOn .help)
      · rw [read_switch standsAlone isSwitch help, read_switch standsAlone isSwitch help]
        exact ih (raised.turnOn switch)
    | none =>
      rw [read_positional standsAlone isSwitch, read_positional standsAlone isSwitch,
        raised.inputFile_eq]
      split
      · exact .refused _
      · split
        · exact .refused _
        · exact ih (raised.withInputFile _)

theorem Louder.agree_parse {arguments more : List Text} (louder : Louder arguments more) :
    Agree (Options.parse arguments) (Options.parse more) := by
  have start : default.Raised default := ⟨rfl, Nat.le_refl _⟩
  refine (louder.agree_read start).bind fun options other raised => ?_
  rw [raised.showHelp_eq]
  split
  · exact .understood raised
  · exact raised.agree_check

/-! ## Whole runs -/

/-- Flags for the log make no difference to the exit code, to standard output, to what is
copied and to what is written, in whatever way the run ends.  It also reports the same, and
all that was shown of it without the flags still is. -/
theorem run_louder {arguments more : List Text} (louder : Louder arguments more)
    (surroundings : Surroundings) :
    run surroundings arguments = run surroundings more ∧
      ∀ notice : Notice, notice.isShown (logLevel? arguments) = true →
        notice.isShown (logLevel? more) = true := by
  have agree := louder.agree_parse
  rw [run, run, logLevel?, logLevel?]
  generalize Options.parse arguments = parsed at agree
  generalize Options.parse more = parsedLouder at agree
  cases agree with
  | refused error => exact ⟨rfl, fun _ shown => shown⟩
  | understood raised =>
    constructor
    · rw [raised.same]
      rfl
    · intro notice shown
      cases notice with
      | failure message => rfl
      | record level logger message traced =>
        have enough := of_decide_eq_true shown
        exact decide_eq_true (Nat.le_trans raised.level enough)

/-- Surroundings without input and files. -/
def nowhere : Surroundings where
  standardInput := .empty
  fileBytes? := fun _ => none
  canWrite := fun _ => false
  clipboardFault? := none
  generator := .standard

/-- The first flag for the log that stands among these arguments is the name of a class. -/
theorem run_louder_nowhere :
    run nowhere ["--class", "-v", "model.json"] =
      run nowhere ["--debug", "--class", "-v", "--verbose", "model.json", "-v"] := by
  refine (run_louder (.insert ?_ (.setting rfl (.insert ?_ (.argument rfl (.insert ?_ .nil)))))
    nowhere).1
  all_goals decide

end HookScript.CommandLine
