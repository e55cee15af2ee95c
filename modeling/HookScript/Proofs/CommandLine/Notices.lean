import HookScript.CommandLine.Notice
import HookScript.Proofs.Text.Parts

/-!
# What failures show

Every notice that is shown is shown as complete lines, whatever texts it quotes.  So what
is shown after others starts a line of its own, and a failure can be told by the start
of its line.
-/

namespace HookScript.CommandLine

namespace Notice

/-- A text that is empty or ends with a line. -/
inductive Complete : Text → Prop where
  | nothing : Complete []
  | line (before : Text) : Complete (before ++ [.ofChar '\n'])

theorem Complete.append {first second : Text} (completeFirst : Complete first)
    (completeSecond : Complete second) : Complete (first ++ second) := by
  cases completeSecond with
  | nothing =>
    rw [List.append_nil]
    exact completeFirst
  | line before =>
    rw [← List.append_assoc]
    exact .line _

/-- Newlines are shown as they are. -/
theorem Complete.shown {text : Text} (complete : Complete text) :
    Complete (text.flatMap showCodePoint) := by
  cases complete with
  | nothing => exact .nothing
  | line before =>
    rw [List.flatMap_append]
    exact .line _

/-- What follows complete lines starts a line. -/
theorem Complete.exists_line {shown start : Text} (complete : Complete shown)
    (absent : .ofChar '\n' ∉ start) (rest : Text) :
    ∃ line ∈ (shown ++ (start ++ rest)).splitAtEach '\n', start <+: line := by
  rcases Text.splitAtEach_append_of_not_mem absent rest with ⟨part, parts, split⟩
  have listed : start ++ part ∈ (start ++ rest).splitAtEach '\n' := by
    rw [split]
    exact List.mem_cons_self
  refine ⟨start ++ part, ?_, List.prefix_append start part⟩
  cases complete with
  | nothing => exact listed
  | line before =>
    rw [List.append_assoc, List.singleton_append, Text.splitAtEach_append_mark]
    exact List.mem_append_right _ listed

theorem complete_text (notice : Notice) : Complete notice.text := by
  cases notice with
  | failure message => exact .line _
  | record level logger message traced =>
    apply Complete.append (.line _)
    cases traced with
    | true => exact .line (Text.ofString "<traceback>")
    | false => exact .nothing

theorem complete_render (threshold? : Option LogLevel) (notices : List Notice) :
    Complete (render threshold? notices) := by
  apply Complete.shown
  induction notices.filter (isShown threshold?) with
  | nil => exact .nothing
  | cons notice rest ih => exact notice.complete_text.append ih

/-- A failure is shown in a line of its own, whatever is shown in front of it. -/
theorem exists_error_line (threshold? : Option LogLevel) (notices : List Notice) (message : Text) :
    ∃ line ∈ (render threshold? (notices ++ [.failure message])).splitAtEach '\n',
      Text.ofString "error: " <+: line := by
  have shown : render threshold? (notices ++ [.failure message]) = render threshold? notices ++
      (Text.ofString "error: " ++ (message ++ "\n").flatMap showCodePoint) := by
    have alone : ([.failure message].filter (isShown threshold?)).flatMap text =
        Text.ofString "error: " ++ (message ++ "\n") := by
      rw [← List.append_assoc]
      exact List.append_nil _
    rw [render, List.filter_append, List.flatMap_append, List.flatMap_append, alone,
      List.flatMap_append]
    rfl
  rw [shown]
  exact (complete_render threshold? notices).exists_line (by decide) _

end Notice

end HookScript.CommandLine
