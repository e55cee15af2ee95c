import HookScript.Text.Blank

/-!
# Parts of texts

A text is cut at a mark, at every occurrence of a separator, or at the blanks
around it.  The laws here say what the parts contain, and that putting a text
together and cutting it again gives the parts back.
-/

namespace HookScript.Text

/-! ## Up to a mark -/

theorem takeWhile_append_mark {mark : CodePoint} {before : Text} (absent : mark ∉ before)
    (after : Text) : (before ++ mark :: after).takeWhile (fun c => c ≠ mark) = before := by
  induction before with
  | nil => simp only [List.nil_append, ne_eq, not_true_eq_false, decide_false,
      Bool.false_eq_true, not_false_eq_true, List.takeWhile_cons_of_neg]
  | cons c rest ih =>
    rw [List.mem_cons, not_or] at absent
    have other : decide (c ≠ mark) = true := decide_eq_true (Ne.symm absent.1)
    rw [List.cons_append, List.takeWhile_cons, other, ih absent.2, if_pos rfl]

theorem dropWhile_append_mark {mark : CodePoint} {before : Text} (absent : mark ∉ before)
    (after : Text) : (before ++ mark :: after).dropWhile (fun c => c ≠ mark) = mark :: after := by
  induction before with
  | nil => simp only [List.nil_append, ne_eq, not_true_eq_false, decide_false,
      Bool.false_eq_true, not_false_eq_true, List.dropWhile_cons_of_neg]
  | cons c rest ih =>
    rw [List.mem_cons, not_or] at absent
    have other : decide (c ≠ mark) = true := decide_eq_true (Ne.symm absent.1)
    rw [List.cons_append, List.dropWhile_cons, other, if_pos rfl, ih absent.2]

theorem not_mem_takeWhile (mark : CodePoint) (text : Text) :
    mark ∉ text.takeWhile (fun c => c ≠ mark) := by
  intro member
  have every := List.all_eq_true.mp (List.all_takeWhile (p := fun c => decide (c ≠ mark))) mark member
  exact of_decide_eq_true every rfl

/-- What is left from the first mark on starts with it. -/
theorem eq_append_mark {mark first : CodePoint} {text after : Text}
    (behind : text.dropWhile (fun c => c ≠ mark) = first :: after) :
    first = mark ∧ text = text.takeWhile (fun c => c ≠ mark) ++ mark :: after := by
  have whole := List.takeWhile_append_dropWhile (p := fun c => decide (c ≠ mark)) (l := text)
  have stop := List.head?_dropWhile_not (fun c => decide (c ≠ mark)) text
  rw [behind] at whole stop
  have same : first = mark := Decidable.not_not.mp (of_decide_eq_false stop)
  subst same
  exact ⟨rfl, whole.symm⟩

/-- The first mark cuts a text in one way only. -/
theorem append_mark_inj_first {mark : CodePoint} {before before' after after' : Text}
    (absent : mark ∉ before) (absent' : mark ∉ before')
    (same : before ++ mark :: after = before' ++ mark :: after') :
    before = before' ∧ after = after' := by
  have left := takeWhile_append_mark absent after
  rw [same, takeWhile_append_mark absent'] at left
  subst left
  exact ⟨rfl, (List.cons.inj (List.append_cancel_left same)).2⟩

/-- The last mark cuts a text in one way only. -/
theorem append_mark_inj_last {mark : CodePoint} {before before' after after' : Text}
    (absent : mark ∉ after) (absent' : mark ∉ after')
    (same : before ++ mark :: after = before' ++ mark :: after') :
    before = before' ∧ after = after' := by
  have reversed := congrArg List.reverse same
  rw [List.reverse_append, List.reverse_append, List.reverse_cons, List.reverse_cons,
    List.append_assoc, List.append_assoc] at reversed
  rcases append_mark_inj_first (fun member => absent (List.mem_reverse.mp member))
    (fun member => absent' (List.mem_reverse.mp member)) reversed with ⟨behind, front⟩
  exact ⟨List.reverse_inj.mp front, List.reverse_inj.mp behind⟩

/-! ## Between separators -/

/-- Every code point of a text is the separator or lies in one of the parts. -/
theorem mem_splitAtEach (separator : CodePoint) {c : CodePoint} {text : Text} (member : c ∈ text) :
    c = separator ∨ ∃ part ∈ text.splitAtEach separator, c ∈ part := by
  induction text with
  | nil => cases member
  | cons d rest ih =>
    have later : c ∈ rest → c = separator ∨ ∃ part ∈ splitAtEach separator (d :: rest), c ∈ part := by
      intro member
      rcases ih member with same | ⟨part, listed, inside⟩
      · exact Or.inl same
      · right
        unfold splitAtEach
        split
        · exact ⟨part, List.mem_cons_of_mem _ listed, inside⟩
        · cases parts : splitAtEach separator rest with
          | nil => exact absurd parts (splitAtEach_ne_nil separator rest)
          | cons head tail =>
            rw [parts] at listed
            rcases List.mem_cons.mp listed with same | listed
            · exact ⟨d :: head, List.mem_cons_self, List.mem_cons_of_mem _ (same ▸ inside)⟩
            · exact ⟨part, List.mem_cons_of_mem _ listed, inside⟩
    rcases List.mem_cons.mp member with same | member
    · subst same
      by_cases here : c = separator
      · exact Or.inl here
      · right
        rw [splitAtEach, if_neg here]
        cases splitAtEach separator rest with
        | nil => exact ⟨[c], List.mem_cons_self, List.mem_cons_self⟩
        | cons head tail => exact ⟨c :: head, List.mem_cons_self, List.mem_cons_self⟩
    · exact later member

theorem splitAtEach_eq_splitOn (separator : CodePoint) (text : Text) :
    splitAtEach separator text = text.splitOn separator := by
  induction text with
  | nil => rfl
  | cons c rest ih =>
    have first : (c :: rest).splitOn separator =
        if (c == separator) = true then [] :: rest.splitOn separator
        else (rest.splitOn separator).modifyHead (List.cons c) :=
      List.splitOnP_cons_eq_if_modifyHead c rest
    rw [splitAtEach, ih, first]
    simp only [beq_iff_eq]
    cases parts : rest.splitOn separator with
    | nil => exact absurd parts (List.splitOn_ne_nil separator rest)
    | cons part parts => rfl

/-- Parts without the separator are what lies between the separators. -/
theorem splitAtEach_intercalate {separator : CodePoint} {parts : List Text}
    (absent : ∀ part ∈ parts, separator ∉ part) (nonempty : parts ≠ []) :
    splitAtEach separator (List.intercalate [separator] parts) = parts := by
  rw [splitAtEach_eq_splitOn, List.splitOn_intercalate separator absent nonempty]

/-- A text without the separator is its only part. -/
theorem splitAtEach_of_not_mem {separator : CodePoint} {text : Text} (absent : separator ∉ text) :
    splitAtEach separator text = [text] := by
  have whole : ∀ part ∈ [text], separator ∉ part := List.forall_mem_singleton.mpr absent
  have parts := splitAtEach_intercalate whole (List.cons_ne_nil _ _)
  rw [List.intercalate_singleton] at parts
  exact parts

theorem splitAtEach_append_mark (separator : CodePoint) (before after : Text) :
    splitAtEach separator (before ++ separator :: after) =
      splitAtEach separator before ++ splitAtEach separator after := by
  induction before with
  | nil => simp only [List.nil_append, splitAtEach, if_true, List.singleton_append]
  | cons c before ih =>
    rw [List.cons_append, splitAtEach, splitAtEach, ih]
    by_cases here : c = separator
    · rw [if_pos here, if_pos here, List.cons_append]
    · rw [if_neg here, if_neg here]
      cases parts : splitAtEach separator before with
      | nil => exact absurd parts (splitAtEach_ne_nil separator before)
      | cons part parts => rfl

/-- What stands in front of the first separator begins the first part. -/
theorem splitAtEach_append_of_not_mem {separator : CodePoint} {before : Text}
    (absent : separator ∉ before) (after : Text) :
    ∃ part parts, splitAtEach separator (before ++ after) = (before ++ part) :: parts := by
  induction before with
  | nil =>
    cases parts : splitAtEach separator after with
    | nil => exact absurd parts (splitAtEach_ne_nil separator after)
    | cons part more => exact ⟨part, more, parts⟩
  | cons c before ih =>
    rw [List.mem_cons, not_or] at absent
    rcases ih absent.2 with ⟨part, parts, split⟩
    refine ⟨part, parts, ?_⟩
    rw [List.cons_append, splitAtEach, if_neg (Ne.symm absent.1), split]
    rfl

theorem afterLast_append_mark {separator : CodePoint} {after : Text} (absent : separator ∉ after)
    (before : Text) : afterLast separator (before ++ separator :: after) = after := by
  simp only [afterLast, splitAtEach_append_mark, splitAtEach_of_not_mem absent,
    List.getLast_concat]

/-- The gaps stand in front of all parts but the first. -/
theorem intercalate_cons (gap part : Text) (parts : List Text) :
    List.intercalate gap (part :: parts) = part ++ parts.flatMap (gap ++ ·) := by
  induction parts generalizing part with
  | nil => rw [List.intercalate_singleton, List.flatMap_nil, List.append_nil]
  | cons next parts ih =>
    rw [List.intercalate_cons_cons, ih, List.flatMap_cons, List.append_assoc, List.append_assoc]

theorem mem_intercalate {gap : Text} {parts : List Text} {c : CodePoint}
    (member : c ∈ List.intercalate gap parts) : c ∈ gap ∨ ∃ part ∈ parts, c ∈ part := by
  cases parts with
  | nil => cases member
  | cons part parts =>
    rw [intercalate_cons] at member
    rcases List.mem_append.mp member with here | later
    · exact Or.inr ⟨part, List.mem_cons_self, here⟩
    · rcases List.mem_flatMap.mp later with ⟨other, listed, inside⟩
      refine (List.mem_append.mp inside).imp_right fun inPart => ?_
      exact ⟨other, List.mem_cons_of_mem part listed, inPart⟩

theorem intercalate_append (gap : Text) {first second : List Text} (nonempty : first ≠ [])
    (nonempty' : second ≠ []) : List.intercalate gap (first ++ second) =
      List.intercalate gap first ++ gap ++ List.intercalate gap second := by
  rcases List.exists_cons_of_ne_nil nonempty with ⟨part, parts, rfl⟩
  rcases List.exists_cons_of_ne_nil nonempty' with ⟨next, later, rfl⟩
  rw [List.cons_append, intercalate_cons, intercalate_cons, intercalate_cons, List.flatMap_append,
    List.flatMap_cons]
  simp only [List.append_assoc]

/-- Blocks of parts with gaps between them are the parts with gaps between them. -/
theorem intercalate_map_intercalate (gap : Text) {blocks : List (List Text)}
    (nonempty : ∀ block ∈ blocks, block ≠ []) :
    List.intercalate gap (blocks.map (List.intercalate gap)) =
      List.intercalate gap blocks.flatten := by
  induction blocks with
  | nil => rfl
  | cons block blocks ih =>
    rcases List.forall_mem_cons.mp nonempty with ⟨here, later⟩
    cases blocks with
    | nil => rw [List.map_singleton, List.intercalate_singleton, List.flatten_singleton]
    | cons next blocks =>
      have rest : (next :: blocks).flatten ≠ [] := fun empty =>
        later next List.mem_cons_self (List.append_eq_nil_iff.mp empty).1
      rw [List.flatten_cons, intercalate_append gap here rest, ← ih later, List.map_cons,
        List.map_cons, List.intercalate_cons_cons]

/-- A gap of several code points is a separator with the rest of the gap behind it. -/
theorem intercalate_gap (mark : CodePoint) (gap part : Text) (parts : List Text) :
    List.intercalate (mark :: gap) (part :: parts) =
      List.intercalate [mark] (part :: parts.map (gap ++ ·)) := by
  rw [intercalate_cons, intercalate_cons, List.flatMap_map]
  rfl

/-- Parts in a row can be told apart if no part is empty or holds the first code point
of the gaps. -/
theorem intercalate_inj {mark : CodePoint} {gap : Text} {first second : List Text}
    (noMark : mark ∉ gap) (fresh : ∀ part ∈ first, part ≠ [] ∧ mark ∉ part)
    (fresh' : ∀ part ∈ second, part ≠ [] ∧ mark ∉ part)
    (same : List.intercalate (mark :: gap) first = List.intercalate (mark :: gap) second) :
    first = second := by
  have split : ∀ {part : Text} {parts : List Text},
      (∀ other ∈ part :: parts, other ≠ [] ∧ mark ∉ other) →
      splitAtEach mark (List.intercalate (mark :: gap) (part :: parts)) =
        part :: parts.map (gap ++ ·) := by
    intro part parts fresh
    rcases List.forall_mem_cons.mp fresh with ⟨here, later⟩
    rw [intercalate_gap]
    refine splitAtEach_intercalate (List.forall_mem_cons.mpr ⟨here.2, ?_⟩) (List.cons_ne_nil _ _)
    intro shifted listed member
    rcases List.mem_map.mp listed with ⟨other, inParts, rfl⟩
    rcases List.mem_append.mp member with inGap | inOther
    · exact noMark inGap
    · exact (later other inParts).2 inOther
  have cut := congrArg (splitAtEach mark) same
  rcases first with _ | ⟨part, parts⟩ <;> rcases second with _ | ⟨part', parts'⟩
  · rfl
  · rw [split fresh'] at cut
    exact ((fresh' part' List.mem_cons_self).1 (List.cons.inj cut).1.symm).elim
  · rw [split fresh] at cut
    exact ((fresh part List.mem_cons_self).1 (List.cons.inj cut).1).elim
  · rw [split fresh, split fresh'] at cut
    rcases List.cons.inj cut with ⟨here, later⟩
    rw [here, (List.map_inj_right fun _ _ => List.append_cancel_left).mp later]

/-! ## Between blanks -/

theorem isBlank_head_trimStart {text rest : Text} {c : CodePoint}
    (starts : trimStart text = c :: rest) : c.isBlank = false := by
  have stop := List.head?_dropWhile_not CodePoint.isBlank text
  rw [show text.dropWhile CodePoint.isBlank = c :: rest from starts] at stop
  exact stop

/-- A trimmed text does not end with a blank. -/
theorem isBlank_getLast_trim {text before : Text} {c : CodePoint}
    (ends : text.trim = before ++ [c]) : c.isBlank = false := by
  have reversed := congrArg List.reverse ends
  rw [trim, trimEnd, List.reverse_reverse, List.reverse_append, List.reverse_singleton,
    List.singleton_append] at reversed
  exact isBlank_head_trimStart reversed

theorem trimStart_of_isBlank_head {c : CodePoint} (rest : Text) (visible : c.isBlank = false) :
    trimStart (c :: rest) = c :: rest := by
  rw [trimStart, List.dropWhile_cons_of_neg]
  rw [visible]
  exact Bool.false_ne_true

/-- A text without blanks is trimmed already. -/
theorem trim_of_forall {text : Text} (visible : ∀ c ∈ text, c.isBlank = false) :
    text.trim = text := by
  have start : ∀ text : Text, (∀ c ∈ text, c.isBlank = false) → trimStart text = text := by
    intro text visible
    cases text with
    | nil => rfl
    | cons c rest => exact trimStart_of_isBlank_head rest (visible c List.mem_cons_self)
  have reversed : ∀ c ∈ text.reverse, c.isBlank = false := by
    intro c member
    exact visible c (List.mem_reverse.mp member)
  rw [trim, start text visible, trimEnd, start text.reverse reversed, List.reverse_reverse]

end HookScript.Text
