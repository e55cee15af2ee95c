import HookScript.Proofs.CommandLine.Outcomes

/-!
# What runs may be relied on for

The contract of a run says what its exit code means, that a run which fails has done nothing
but to say so, and that any other run brings the output of the pipeline to where it is asked
for.  A run keeps the contract exactly if it does not break off.  One way to break off is
an integer with too many digits, which a model may hold as it is not looked at.
-/

namespace HookScript.CommandLine

/-- What the end of a run may be relied on for. -/
structure Contract (surroundings : Surroundings) (arguments : List Text) (outcome : Outcome) :
    Prop where
  /-- The exit code is the run's own. -/
  whole : outcome.breakdown? = none
  /-- There are three exit codes. -/
  exitCode : outcome.exitCode = 0 ∨ outcome.exitCode = 1 ∨ outcome.exitCode = 2
  /-- A run that fails says so, and neither prints nor writes anything. -/
  failure : outcome.exitCode ≠ 0 →
    outcome.standardOutput = [] ∧ outcome.written? = none ∧
      ∃ line ∈ (standardError arguments outcome).splitAtEach '\n', Text.ofString "error: " <+: line
  /-- It has copied its output only if it could not write it afterwards. -/
  copied : outcome.exitCode ≠ 0 ∧ outcome.copied ≠ [] ↔
    ∃ options output, CopiesInVain surroundings arguments options output
  misused : outcome.exitCode = 2 ↔ Misused surroundings arguments
  /-- A run that does not fail brings the output of the pipeline to where it is asked for. -/
  success : outcome.exitCode = 0 → ∀ options, Options.parse arguments = .ok options →
    options.showHelp = false →
      ∃ output, Produces surroundings arguments options output ∧ outcome.Delivers options output
  /-- Nothing fails without a reason. -/
  complete : ∀ options output, Deliverable surroundings arguments options output →
    outcome.exitCode = 0
  encodable : outcome.Encodable

variable {surroundings : Surroundings} {arguments : List Text} {outcome : Outcome}

/-! ## Reading the contract off -/

theorem proper_of_help {options : Options} (parsed : Options.parse arguments = .ok options)
    (asked : options.showHelp = true) :
    ¬Misused surroundings arguments ∧
      ∀ other output, ¬Produces surroundings arguments other output :=
  proper_of_not_reads parsed fun _ reads => nomatch asked.symm.trans reads.noHelp

theorem Produces.scalar (standard : surroundings.generator = .standard) {options : Options}
    {output : Text} (produces : Produces surroundings arguments options output) :
    output.Scalar := by
  cases produces with
  | @output source notices reads _ _ succeeds =>
    have clean := clean_runPipeline source options.request
      (Options.asks_of_parse reads.parsed reads.noHelp)
    rw [← standard, succeeds] at clean
    cases clean with
    | success _ scalar => exact scalar

theorem scalar_usage : usage.Scalar := by
  unfold usage
  exact Text.scalar_ofString _

theorem encodable_failure (exitCode : Nat) (message : Text) (notices : List Notice)
    (copied : List Text) : (Outcome.failure exitCode message notices copied).Encodable :=
  ⟨rfl, nofun⟩

namespace Ends

variable (ends : Ends surroundings arguments outcome)
include ends

theorem exitCode : outcome.exitCode = 0 ∨ outcome.exitCode = 1 ∨ outcome.exitCode = 2 := by
  cases ends with
  | help => exact Or.inl rfl
  | misused => exact Or.inr (Or.inr rfl)
  | delivered _ delivers => exact Or.inl delivers.exitCode
  | _ => exact Or.inr (Or.inl rfl)

theorem encodable (standard : surroundings.generator = .standard) : outcome.Encodable := by
  cases ends with
  | help =>
    rw [Outcome.Encodable, Text.isSome_toUtf8?_iff]
    dsimp only
    exact ⟨scalar_usage, nofun⟩
  | misused => exact encodable_failure ..
  | noOutput => exact encodable_failure ..
  | notCopied => exact encodable_failure ..
  | notWritten => exact encodable_failure ..
  | delivered deliverable delivers =>
    have ended := Text.isSome_toUtf8?_iff.mpr
      ((deliverable.produces.scalar standard).append (Text.scalar_ofString "\n"))
    have placed := delivers.placed
    split at placed
    next =>
      rw [Outcome.Encodable, placed.1, placed.2]
      exact ⟨ended, nofun⟩
    next =>
      rw [Outcome.Encodable, placed.1, placed.2]
      refine ⟨rfl, fun file same => ?_⟩
      cases same
      exact ended
  | broken => exact ⟨rfl, nofun⟩

variable (sound : ¬Breaks surroundings arguments)
include sound

theorem whole : outcome.breakdown? = none := by
  cases ends with
  | delivered _ delivers => exact delivers.whole
  | broken _ _ _ breaks => exact absurd breaks sound
  | _ => rfl

theorem failure (fails : outcome.exitCode ≠ 0) :
    ∃ exitCode message notices copied, outcome = .failure exitCode message notices copied := by
  cases ends with
  | help => exact absurd rfl fails
  | misused => exact ⟨_, _, _, _, rfl⟩
  | noOutput => exact ⟨_, _, _, _, rfl⟩
  | notCopied => exact ⟨_, _, _, _, rfl⟩
  | notWritten => exact ⟨_, _, _, _, rfl⟩
  | delivered _ delivers => exact absurd delivers.exitCode fails
  | broken _ _ _ breaks => exact absurd breaks sound

theorem misused_iff : outcome.exitCode = 2 ↔ Misused surroundings arguments := by
  cases ends with
  | help parsed asked => exact ⟨nofun, fun misused => absurd misused (proper_of_help parsed asked).1⟩
  | misused _ misused => exact ⟨fun _ => misused, fun _ => rfl⟩
  | noOutput _ _ proper => exact ⟨nofun, fun misused => absurd misused proper⟩
  | notCopied _ _ produces => exact ⟨nofun, fun misused => absurd misused produces.not_misused⟩
  | notWritten _ _ produces => exact ⟨nofun, fun misused => absurd misused produces.not_misused⟩
  | delivered deliverable delivers =>
    rw [delivers.exitCode]
    exact ⟨nofun, fun misused => absurd misused deliverable.produces.not_misused⟩
  | broken _ _ _ breaks => exact absurd breaks sound

theorem copied_iff :
    outcome.exitCode ≠ 0 ∧ outcome.copied ≠ [] ↔
      ∃ options output, CopiesInVain surroundings arguments options output := by
  constructor
  · rintro ⟨fails, copied⟩
    cases ends with
    | help => exact absurd rfl fails
    | misused => exact absurd rfl copied
    | noOutput => exact absurd rfl copied
    | notCopied => exact absurd rfl copied
    | @notWritten options output _ _ _ produces works file unwritable =>
      cases copies : options.copies with
      | true => exact ⟨options, output, produces, copies, works copies, _, file, unwritable⟩
      | false =>
        rw [copies] at copied
        exact absurd rfl copied
    | delivered _ delivers => exact absurd delivers.exitCode fails
    | broken _ _ _ breaks => exact absurd breaks sound
  · rintro ⟨options, output, vain⟩
    rcases vain.notWritten with ⟨name, file, unwritable⟩
    cases ends with
    | help parsed asked => exact absurd vain.produces ((proper_of_help parsed asked).2 _ _)
    | misused _ misused => exact absurd misused vain.produces.not_misused
    | noOutput _ _ _ nothing => exact absurd vain.produces (nothing _ _)
    | notCopied _ _ _ _ fails => cases fails.symm.trans vain.copied
    | notWritten _ _ produces =>
      rcases produces.eq vain.produces with ⟨rfl, rfl⟩
      rw [vain.copies]
      exact ⟨Nat.one_ne_zero, List.cons_ne_nil _ _⟩
    | delivered deliverable =>
      rcases deliverable.produces.eq vain.produces with ⟨rfl, rfl⟩
      cases (deliverable.writable name file).symm.trans unwritable
    | broken _ _ _ breaks => exact absurd breaks sound

theorem success (well : outcome.exitCode = 0) {options : Options}
    (parsed : Options.parse arguments = .ok options) (noHelp : options.showHelp = false) :
    ∃ output, Produces surroundings arguments options output ∧ outcome.Delivers options output := by
  cases ends with
  | help parsedHelp asked =>
    rw [Except.ok.inj (parsedHelp.symm.trans parsed), noHelp] at asked
    cases asked
  | misused => cases well
  | noOutput => cases well
  | notCopied => cases well
  | notWritten => cases well
  | @delivered other output _ deliverable delivers =>
    have produces := deliverable.produces
    cases produces with
    | output reads visible copes succeeds =>
      have same := Except.ok.inj (reads.parsed.symm.trans parsed)
      exact ⟨output, same ▸ deliverable.produces, same ▸ delivers⟩
  | broken _ _ _ breaks => exact absurd breaks sound

theorem complete {options : Options} {output : Text}
    (deliverable : Deliverable surroundings arguments options output) : outcome.exitCode = 0 := by
  have produces := deliverable.produces
  cases ends with
  | help => rfl
  | misused _ misused => exact absurd misused produces.not_misused
  | noOutput _ _ _ nothing => exact absurd produces (nothing _ _)
  | notCopied _ _ again copies fails =>
    rcases again.eq produces with ⟨rfl, rfl⟩
    cases (deliverable.copied copies).symm.trans fails
  | notWritten _ _ again _ file unwritable =>
    rcases again.eq produces with ⟨rfl, rfl⟩
    cases (deliverable.writable _ file).symm.trans unwritable
  | delivered _ delivers => exact delivers.exitCode
  | broken _ _ _ breaks => exact absurd breaks sound

end Ends

/-! ## Main statement -/

def classSource : String := "\x7b\"classes\": [\x7b\"name\": \"a\"\x7d]\x7d"

/-- A place with the document in a file and a clipboard. -/
def fileSurroundings (canWrite : Bool) : Surroundings where
  standardInput := .empty
  fileBytes? := fun name => if name = "model.json" then some classSource.toUTF8 else none
  canWrite := fun _ => canWrite
  clipboardFault? := none
  generator := .standard

def copyArguments : List Text :=
  ["model.json", "--class", "a", "--copy", "-o", "out"].map Text.ofString

def copyOptions : Options :=
  { Options.default with
    className? := some "a", copy := true, inputFile? := some "model.json", outputFile? := some "out" }

theorem reads_fileSurroundings (canWrite : Bool) :
    Reads (fileSurroundings canWrite) copyArguments copyOptions (Text.ofString classSource) where
  parsed := rfl
  noHelp := rfl
  given := .file (openFault?_eq_none_iff.mp (by decide)) rfl (Text.ofUtf8?_toUTF8 _)

theorem copes_fileSurroundings (canWrite : Bool) :
    (fileSurroundings canWrite).Copes (Text.ofString classSource) copyOptions.request where
  integers := by
    change ¬Json.Overlong 4300 (Text.ofString classSource)
    decide +kernel
  stack := rfl

theorem not_breaks_fileSurroundings (canWrite : Bool) :
    ¬Breaks (fileSurroundings canWrite) copyArguments := by
  refine (reads_fileSurroundings canWrite).not_breaks (copes_fileSurroundings canWrite) ?_
  intro name named
  cases named
  exact openFault?_eq_none_iff.mp (by decide)

theorem exists_produces_fileSurroundings (canWrite : Bool) :
    ∃ output, Produces (fileSurroundings canWrite) copyArguments copyOptions output := by
  have succeeds :
      (runPipeline .standard (Text.ofString classSource) copyOptions.request).exitCode = 0 := by
    decide +kernel
  have clean := clean_runPipeline (Text.ofString classSource) copyOptions.request (Or.inl rfl)
  generalize runs : runPipeline .standard (Text.ofString classSource) copyOptions.request = result at *
  cases clean with
  | failure => cases succeeds
  | success notices _ =>
    exact ⟨_, .output (reads_fileSurroundings canWrite) (by decide) (copes_fileSurroundings canWrite)
      runs⟩

/-- What stands behind the integer of the model below. -/
def afterInteger : List Char :=
  [',', '\x22', 'c', 'l', 'a', 's', 's', 'e', 's', '\x22', ':', '[', ']', '\x7d']

/-- A model that holds an integer with so many digits, which is not looked at. -/
def integerModel (count : Nat) : List Char :=
  ['\x7b', '\x22', 'n', '\x22', ':'] ++ (List.replicate count '1' ++ afterInteger)

/-- A place with the model at standard input. -/
def integerSurroundings (count : Nat) : Surroundings where
  standardInput := (String.ofList (integerModel count)).toUTF8
  fileBytes? := fun _ => none
  canWrite := fun _ => false
  clipboardFault? := none
  generator := .standard

theorem integerLength?_ones (count : Nat) :
    Json.integerLength? ((List.replicate (count + 1) '1' ++ afterInteger).map CodePoint.ofChar) =
      some (count + 1) := by
  have all : ∀ c ∈ List.replicate count (CodePoint.ofChar '1'), Json.isDecimal c = true := by
    intro c listed
    rw [List.eq_of_mem_replicate listed]
    rfl
  have digits : Json.decimals (List.replicate count (.ofChar '1') ++ afterInteger.map .ofChar) =
      (List.replicate count (.ofChar '1'), afterInteger.map .ofChar) := by
    rw [Json.decimals, List.takeWhile_append_of_pos all, List.dropWhile_append_of_pos all]
    exact Prod.ext (List.append_nil _) rfl
  have whole : Json.integral? ((List.replicate (count + 1) '1' ++ afterInteger).map .ofChar) =
      some (List.replicate (count + 1) (.ofChar '1'), afterInteger.map .ofChar) := by
    rw [List.map_append, List.map_replicate, List.replicate_succ, List.cons_append,
      Json.integral?, digits]
    rfl
  have plain : Json.unsigned ((List.replicate (count + 1) '1' ++ afterInteger).map .ofChar) =
      (List.replicate (count + 1) '1' ++ afterInteger).map .ofChar := by
    rw [List.replicate_succ]
    rfl
  have ends : Json.endsInteger (afterInteger.map .ofChar) = true := by decide
  rw [Json.integerLength?, plain, whole, Option.filter_some, if_pos ends, Option.map_some,
    List.length_replicate]

theorem overlong?_integerModel {limit count : Nat} (long : limit < count + 1) :
    Json.overlong? limit ((integerModel (count + 1)).map .ofChar) = some (count + 1) := by
  have here : Json.overlongFrom? limit (['\x7b', '\x22', 'n', '\x22', ':'].map .ofChar).reverse
      ((List.replicate (count + 1) '1' ++ afterInteger).map .ofChar) = some (count + 1) :=
    Json.overlongFrom?_of_integer (integerLength?_ones count) long (by decide)
  exact here

theorem run_integerModel {count : Nat} (long : 4300 < count + 1) :
    run (integerSurroundings (count + 1)) ["--stop-at", "load"] =
      .broken (.overlongInteger 4300 (count + 1)) [] [] := by
  let options : Options := { Options.default with stopAt? := some "load" }
  have decoded : Text.ofUtf8? (integerSurroundings (count + 1)).standardInput =
      some ((integerModel (count + 1)).map .ofChar) := by
    rw [integerSurroundings, Text.ofUtf8?_toUTF8, Text.ofString, String.toList_ofList]
  have reads : Reads (integerSurroundings (count + 1)) ["--stop-at", "load"] options
      ((integerModel (count + 1)).map .ofChar) := ⟨rfl, rfl, .standardInput decoded⟩
  have visible : Text.isBlank ((integerModel (count + 1)).map .ofChar) = false := rfl
  have fault : (integerSurroundings (count + 1)).documentFault?
      ((integerModel (count + 1)).map .ofChar) options.request =
        some (.overlongInteger 4300 (count + 1)) :=
    documentFault?_of_overlong (overlong?_integerModel long)
  rw [run_of_reads reads, runOn, visible, fault]
  rfl

end HookScript.CommandLine
