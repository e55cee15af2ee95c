import HookScript.Proofs.Json.Quoting

/-!
# Reading written documents

A written document is read back as it was, if it has no numbers and its texts are
joined.  Layout is skipped where the writer puts it: after an opening bracket, a
colon or a comma, and in front of a closing bracket.

Reading an array takes one unit of fuel for each item before the one that is read,
and every such item has at least a comma of its own.  Hence as much fuel as the
text is long is enough.
-/

namespace HookScript.Json

/-- A document without numbers, all of whose texts are joined. -/
inductive Plain : Json → Prop where
  | null : Plain .null
  | bool (value : Bool) : Plain (.bool value)
  | str {text : Text} (joined : text.Joined) : Plain (.str text)
  | arr {items : List Json} (each : ∀ item ∈ items, Plain item) : Plain (.arr items)
  | obj {members : List (Text × Json)} (names : ∀ member ∈ members, Text.Joined member.1)
      (each : ∀ member ∈ members, Plain member.2) : Plain (.obj members)

/-! ## Layout -/

theorem skipSpace_solid {c : CodePoint} (solid : isSpace c = false) (rest : Text) :
    skipSpace (c :: rest) = c :: rest := by
  rw [skipSpace, List.dropWhile_cons_of_neg]
  rw [solid]
  exact Bool.false_ne_true

theorem skipSpace_append {space : Text} (spaces : ∀ c ∈ space, isSpace c = true) {c : CodePoint}
    (solid : isSpace c = false) (rest : Text) : skipSpace (space ++ c :: rest) = c :: rest := by
  rw [skipSpace, List.dropWhile_append_of_pos spaces]
  exact skipSpace_solid solid rest

theorem isSpace_newline (depth : Nat) : ∀ c ∈ newline depth, isSpace c = true := by
  intro c member
  rcases List.mem_cons.mp member with same | repeated
  · rw [same]
    rfl
  · rw [(List.mem_replicate.mp repeated).2]
    rfl

/-- A written value starts with no space, no byte order mark, and no end of an
array. -/
theorem renderAt_eq_cons {document : Json} (plain : document.Plain) (depth : Nat) :
    ∃ c rest, renderAt depth document = c :: rest ∧ isSpace c = false ∧ c ≠ ']' ∧
      c ≠ byteOrderMark := by
  cases plain with
  | null => exact ⟨_, _, rfl, by decide, by decide, by decide⟩
  | bool value => cases value <;> exact ⟨_, _, rfl, by decide, by decide, by decide⟩
  | str => exact ⟨_, _, rfl, by decide, by decide, by decide⟩
  | @arr items => cases items <;> exact ⟨_, _, rfl, by decide, by decide, by decide⟩
  | @obj members => cases members <;> exact ⟨_, _, rfl, by decide, by decide, by decide⟩

theorem skipSpace_renderAt {space : Text} (spaces : ∀ c ∈ space, isSpace c = true)
    {document : Json} (plain : document.Plain) (depth : Nat) (rest : Text) :
    skipSpace (space ++ (renderAt depth document ++ rest)) = renderAt depth document ++ rest := by
  rcases renderAt_eq_cons plain depth with ⟨c, more, spelled, solid, _⟩
  rw [spelled]
  exact skipSpace_append spaces solid _

/-! ## Items and members -/

/-- A value that is read back from its written form, given as much fuel as the form
is long. -/
def ReadsBack (document : Json) : Prop :=
  ∀ (depth fuel : Nat) (rest : Text), (renderAt depth document).length ≤ fuel →
    value fuel (renderAt depth document ++ rest) = .ok (document, rest)

variable {depth : Nat}

theorem items_render {item : Json} {more : List Json}
    (plain : ∀ entry ∈ item :: more, Plain entry)
    (reads : ∀ entry ∈ item :: more, ReadsBack entry) {fuel : Nat}
    (enough : (renderAt depth item).length + (renderItems depth more).length < fuel)
    (outer : Nat) (rest : Text) :
    items fuel (renderAt depth item ++
      (renderItems depth more ++ (newline outer ++ .ofChar ']' :: rest))) =
        .ok (item :: more, rest) := by
  induction more generalizing item fuel with
  | nil =>
    cases fuel with
    | zero => exact absurd enough (Nat.not_lt_zero _)
    | succ fuel =>
      have first := reads item List.mem_cons_self depth fuel
        (newline outer ++ .ofChar ']' :: rest) (by omega)
      rw [items.eq_def]
      simp only [renderItems, List.nil_append, first, Outcome.ok_bind,
        skipSpace_append (isSpace_newline outer) (by decide : isSpace (.ofChar ']') = false)]
      rfl
  | cons second more ih =>
    cases fuel with
    | zero => exact absurd enough (Nat.not_lt_zero _)
    | succ fuel =>
      have laid : renderItems depth (second :: more) = .ofChar ',' :: (newline depth ++
          (renderAt depth second ++ renderItems depth more)) := by
        rw [renderItems, List.append_assoc, List.append_assoc]
        rfl
      rw [laid, List.length_cons, List.length_append, List.length_append] at enough
      have first := reads item List.mem_cons_self depth fuel
        (.ofChar ',' :: (newline depth ++ (renderAt depth second ++
          (renderItems depth more ++ (newline outer ++ .ofChar ']' :: rest))))) (by omega)
      have spaced := skipSpace_renderAt (isSpace_newline depth)
        (plain second (List.mem_cons_of_mem item List.mem_cons_self)) depth
        (renderItems depth more ++ (newline outer ++ .ofChar ']' :: rest))
      have short : (renderAt depth second).length + (renderItems depth more).length < fuel := by
        omega
      have later := ih (fun entry member => plain entry (List.mem_cons_of_mem item member))
        (fun entry member => reads entry (List.mem_cons_of_mem item member)) short
      have comma : isSpace (.ofChar ',') = false := by decide
      have notClosed : CodePoint.ofChar ',' ≠ ']' := by decide
      rw [items.eq_def]
      simp only [laid, List.cons_append, List.append_assoc, first, Outcome.ok_bind,
        skipSpace_solid comma, if_neg notClosed, if_true, spaced, later]
      rfl

/-- A written member is read up to its end, where either the object ends or the
next member follows. -/
theorem members_renderAt {name : Text} {content : Json} (joined : name.Joined)
    (plain : content.Plain) (reads : content.ReadsBack) {fuel : Nat}
    (enough : (renderAt depth content).length ≤ fuel) (rest : Text) :
    members (fuel + 1)
        (quote name ++ (.ofChar ':' :: .ofChar ' ' :: (renderAt depth content ++ rest))) =
      match skipSpace rest with
      | [] => fail .noComma []
      | next :: after =>
        if next = '\x7d' then .ok ([(name, content)], after)
        else if next = ',' then do
          let (more, left) ← members fuel (skipSpace after)
          return ((name, content) :: more, left)
        else fail .noComma (next :: after) := by
  have spaces : ∀ c ∈ [CodePoint.ofChar ' '], isSpace c = true := by decide
  have spaced := skipSpace_renderAt spaces plain depth rest
  have colon : isSpace (.ofChar ':') = false := by decide
  have quoted : (quote name ++ (.ofChar ':' :: .ofChar ' ' ::
      (renderAt depth content ++ rest))).head? = some (.ofChar '\x22') := by
    rw [quote_append]
    rfl
  rw [members.eq_def]
  simp only [quoted, ne_eq, not_true_eq_false, if_false, string_quote joined, Outcome.ok_bind,
    skipSpace_solid colon]
  rw [List.singleton_append] at spaced
  rw [spaced, reads depth fuel rest enough]
  rfl

theorem members_render {name : Text} {content : Json} {more : List (Text × Json)}
    (names : ∀ member ∈ (name, content) :: more, Text.Joined member.1)
    (plain : ∀ member ∈ (name, content) :: more, Plain member.2)
    (reads : ∀ member ∈ (name, content) :: more, ReadsBack member.2) {fuel : Nat}
    (enough : (renderAt depth content).length + (renderMembers depth more).length < fuel)
    (outer : Nat) (rest : Text) :
    members fuel (quote name ++ (.ofChar ':' :: .ofChar ' ' :: (renderAt depth content ++
      (renderMembers depth more ++ (newline outer ++ .ofChar '\x7d' :: rest))))) =
        .ok ((name, content) :: more, rest) := by
  induction more generalizing name content fuel with
  | nil =>
    cases fuel with
    | zero => exact absurd enough (Nat.not_lt_zero _)
    | succ fuel =>
      have fits : (renderAt depth content).length ≤ fuel := by omega
      have closed : isSpace (.ofChar '\x7d') = false := by decide
      rw [members_renderAt (names _ List.mem_cons_self) (plain _ List.mem_cons_self)
        (reads _ List.mem_cons_self) fits]
      simp only [renderMembers, List.nil_append, skipSpace_append (isSpace_newline outer) closed,
        if_true]
  | cons second more ih =>
    obtain ⟨next, value⟩ := second
    cases fuel with
    | zero => exact absurd enough (Nat.not_lt_zero _)
    | succ fuel =>
      have laid : renderMembers depth ((next, value) :: more) = .ofChar ',' :: (newline depth ++
          (quote next ++ (.ofChar ':' :: .ofChar ' ' ::
            (renderAt depth value ++ renderMembers depth more)))) := by
        simp only [renderMembers, List.append_assoc]
        rfl
      rw [laid] at enough
      simp only [List.length_cons, List.length_append] at enough
      have fits : (renderAt depth content).length ≤ fuel := by omega
      have short : (renderAt depth value).length + (renderMembers depth more).length < fuel := by
        omega
      have later := ih (fun member listed => names member (List.mem_cons_of_mem _ listed))
        (fun member listed => plain member (List.mem_cons_of_mem _ listed))
        (fun member listed => reads member (List.mem_cons_of_mem _ listed)) short
      have comma : isSpace (.ofChar ',') = false := by decide
      have opened : isSpace (.ofChar '\x22') = false := by decide
      have notClosed : CodePoint.ofChar ',' ≠ '\x7d' := by decide
      rw [members_renderAt (names _ List.mem_cons_self) (plain _ List.mem_cons_self)
        (reads _ List.mem_cons_self) fits]
      rw [quote_append] at later
      simp only [laid, List.cons_append, List.append_assoc, quote_append, skipSpace_solid comma,
        if_neg notClosed, if_true, skipSpace_append (isSpace_newline depth) opened]
      rw [later]
      rfl

/-! ## Documents -/

theorem value_array {fuel : Nat} {rest text left : Text} {content : List Json}
    (starts : ∃ c more, text = c :: more ∧ c ≠ ']') (skipped : skipSpace rest = text)
    (read : items fuel text = .ok (content, left)) :
    value (fuel + 1) (.ofChar '[' :: rest) = .ok (.arr content, left) := by
  rcases starts with ⟨c, more, spelled, notClosed⟩
  have notQuote : CodePoint.ofChar '[' ≠ '\x22' := by decide
  rw [spelled] at skipped read
  rw [value.eq_def]
  simp only [if_neg notQuote, if_true, skipped, if_neg notClosed, read]
  rfl

theorem value_object {fuel : Nat} {rest text left : Text} {content : List (Text × Json)}
    (starts : ∃ c more, text = c :: more ∧ c ≠ '\x7d') (skipped : skipSpace rest = text)
    (read : members fuel text = .ok (content, left)) :
    value (fuel + 1) (.ofChar '\x7b' :: rest) = .ok (.obj content, left) := by
  rcases starts with ⟨c, more, spelled, notClosed⟩
  have notQuote : CodePoint.ofChar '\x7b' ≠ '\x22' := by decide
  have notArray : CodePoint.ofChar '\x7b' ≠ '[' := by decide
  rw [spelled] at skipped read
  rw [value.eq_def]
  simp only [if_neg notQuote, if_neg notArray, if_true, skipped, if_neg notClosed, read]
  rfl

theorem readsBack_arr {items : List Json} (plain : ∀ item ∈ items, Plain item)
    (reads : ∀ item ∈ items, ReadsBack item) : ReadsBack (.arr items) := by
  intro depth fuel rest enough
  cases fuel with
  | zero => cases items <;> cases enough
  | succ fuel =>
    cases items with
    | nil => rfl
    | cons item more =>
      have opening : (Text.ofString "[").length = 1 := rfl
      have closing : (Text.ofString "]").length = 1 := rfl
      simp only [renderAt, List.length_append] at enough
      have short : (renderAt (depth + 1) item).length +
          (renderItems (depth + 1) more).length < fuel := by omega
      have inside := items_render plain reads short depth rest
      rcases renderAt_eq_cons (plain item List.mem_cons_self) (depth + 1) with
        ⟨c, tail, spelled, _, notClosed, _⟩
      simp only [renderAt, List.append_assoc]
      exact value_array ⟨c, _, congrArg (· ++ _) spelled, notClosed⟩
        (skipSpace_renderAt (isSpace_newline _) (plain item List.mem_cons_self) _ _) inside

theorem readsBack_obj {members : List (Text × Json)}
    (names : ∀ member ∈ members, Text.Joined member.1)
    (plain : ∀ member ∈ members, Plain member.2)
    (reads : ∀ member ∈ members, ReadsBack member.2) : ReadsBack (.obj members) := by
  intro depth fuel rest enough
  cases fuel with
  | zero => cases members <;> cases enough
  | succ fuel =>
    cases members with
    | nil => rfl
    | cons member more =>
      obtain ⟨name, content⟩ := member
      have opening : (Text.ofString "\x7b").length = 1 := rfl
      have closing : (Text.ofString "\x7d").length = 1 := rfl
      simp only [renderAt, List.length_append] at enough
      have short : (renderAt (depth + 1) content).length +
          (renderMembers (depth + 1) more).length < fuel := by omega
      have inside := members_render names plain reads short depth rest
      simp only [renderAt, List.append_assoc]
      rw [quote_append] at inside ⊢
      exact value_object ⟨_, _, rfl, by decide⟩
        (skipSpace_append (isSpace_newline _) (by decide) _) inside

theorem readsBack {document : Json} (plain : document.Plain) : ReadsBack document := by
  induction plain with
  | null =>
    intro depth fuel rest enough
    cases fuel with
    | zero => cases enough
    | succ fuel => rfl
  | bool value =>
    intro depth fuel rest enough
    cases fuel with
    | zero => cases value <;> cases enough
    | succ fuel => cases value <;> rfl
  | @str text joined =>
    intro depth fuel rest enough
    cases fuel with
    | zero => cases enough
    | succ fuel =>
      have read := string_quote joined rest
      rw [quote_append] at read
      rw [renderAt, quote_append, value.eq_def]
      simp only [if_true, read]
      rfl
  | arr each ih => exact readsBack_arr each ih
  | obj names each ih => exact readsBack_obj names each ih

/-- A document without numbers is read back as it was written. -/
theorem parse_render {document : Json} (plain : document.Plain) :
    parse document.render = .ok document := by
  rcases renderAt_eq_cons plain 0 with ⟨c, rest, spelled, solid, _, noMark⟩
  have unmarked : (renderAt 0 document).head? ≠ some byteOrderMark := by
    rw [spelled]
    exact fun same => noMark (Option.some.inj same)
  have skipped : skipSpace (renderAt 0 document) = renderAt 0 document := by
    rw [spelled]
    exact skipSpace_solid solid rest
  have enough : (renderAt 0 document).length ≤ 2 * (renderAt 0 document).length + 2 := by omega
  have read := readsBack plain 0 _ [] enough
  rw [List.append_nil] at read
  simp only [parse, render, if_neg unmarked, skipped, read]
  rfl

end HookScript.Json
