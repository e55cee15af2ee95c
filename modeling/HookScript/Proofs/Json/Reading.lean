import HookScript.Json.Reader
import HookScript.Proofs.Outcome
import HookScript.Proofs.Text.Surrogates

/-!
# Texts of documents

The surrogates in a document that is read from bytes all come from escapes of
code units.  As the reader joins the escapes of a pair, no text of such a document
has the two halves of a pair side by side.

The reader goes through the text from front to back, and leaves over an end of
it.  Hence what holds of all code points of the text holds of those that each of
its parts is read from.
-/

namespace HookScript.Json

/-! ## Joining elements -/

/-- An element of a string in a text without surrogates. -/
def Piece.Sound : Piece → Prop
  | .plain c => c.isSurrogate = false
  | .unit u => u < 0x10000

/-- What a code unit and the elements after it spell starts with a low surrogate
only if the unit is one. -/
theorem isLowSurrogate_of_head?_joinPieces {u : Nat} {elements : List Piece} {c : CodePoint}
    (bound : u < 0x10000) (head : c ∈ (joinPieces (.unit u :: elements)).head?)
    (low : CodePoint.isLowSurrogate c.val = true) : CodePoint.isLowSurrogate u = true := by
  have alone : (CodePoint.ofNat u).val = u := CodePoint.val_ofNat (Nat.lt_trans bound (by decide))
  cases elements with
  | nil =>
    cases head
    exact alone ▸ low
  | cons element elements =>
    cases element with
    | plain d =>
      cases head
      exact alone ▸ low
    | unit v =>
      rw [joinPieces] at head
      split at head
      next pair =>
        have same : CodePoint.ofPair u v = c := Option.some.inj head
        rw [← same] at low
        have scalar := CodePoint.isSurrogate_ofPair (Bool.and_eq_true_iff.mp pair).1
          (Bool.and_eq_true_iff.mp pair).2
        exact absurd low (CodePoint.not_isLowSurrogate scalar)
      next =>
        cases head
        exact alone ▸ low

/-- The elements of a string spell a joined text: a unit is left alone only if it
forms no pair with the next one. -/
theorem joined_joinPieces {elements : List Piece} (sound : ∀ element ∈ elements, element.Sound) :
    (joinPieces elements).Joined := by
  fun_induction joinPieces elements with
  | case1 => exact List.isChain_nil
  | case2 c rest ih =>
    rcases List.forall_mem_cons.mp sound with ⟨scalar, later⟩
    exact (ih later).cons_scalar scalar
  | case3 u => exact List.isChain_singleton _
  | case4 u c rest ih =>
    rcases List.forall_mem_cons.mp sound with ⟨_, sound⟩
    rcases List.forall_mem_cons.mp sound with ⟨scalar, later⟩
    have tail := (ih later).cons_scalar scalar
    refine Text.joined_cons.mpr ⟨?_, tail⟩
    intro d head pair
    cases head
    exact CodePoint.not_isLowSurrogate scalar pair.2
  | case5 u v rest pair ih =>
    rcases List.forall_mem_cons.mp sound with ⟨_, sound⟩
    have later := (List.forall_mem_cons.mp sound).2
    have scalar := CodePoint.isSurrogate_ofPair (Bool.and_eq_true_iff.mp pair).1
      (Bool.and_eq_true_iff.mp pair).2
    exact (ih later).cons_scalar scalar
  | case6 u v rest apart ih =>
    rcases List.forall_mem_cons.mp sound with ⟨bound, later⟩
    rcases List.forall_mem_cons.mp later with ⟨nextBound, _⟩
    refine Text.joined_cons.mpr ⟨?_, ih later⟩
    intro d head pair
    have low := isLowSurrogate_of_head?_joinPieces nextBound head pair.2
    rw [CodePoint.val_ofNat (Nat.lt_trans bound (by decide))] at pair
    exact apart (Bool.and_eq_true_iff.mpr ⟨pair.1, low⟩)

/-! ## Readings -/

/-- Whatever a reading of a text gives has a property, and what it leaves over is
an end of the text. -/
def Yields {α : Type} (property : α → Prop) (text : Text) (reading : Except Fault (α × Text)) :
    Prop :=
  ∀ content left, reading = .ok (content, left) → property content ∧ left <:+ text

section

variable {α β : Type} {property : α → Prop} {goal : β → Prop} {text rest left : Text}

theorem yields_error (fault : Fault) : Yields property text (.error fault) := by
  intro content left impossible
  cases impossible

theorem yields_ok {content : α} (holds : property content) (ending : left <:+ text) :
    Yields property text (.ok (content, left)) := by
  intro same after found
  cases found
  exact ⟨holds, ending⟩

theorem Yields.of_suffix {reading : Except Fault (α × Text)} (yields : Yields property rest reading)
    (ending : rest <:+ text) : Yields property text reading := by
  intro content left found
  have later := yields content left found
  exact ⟨later.1, later.2.trans ending⟩

theorem yields_bind {reading : Except Fault (α × Text)}
    {next : α × Text → Except Fault (β × Text)} (first : Yields property text reading)
    (later : ∀ content left, property content → left <:+ text →
      Yields goal text (next (content, left))) : Yields goal text (reading >>= next) := by
  intro result left found
  rcases Outcome.bind_eq_ok.mp found with ⟨⟨content, between⟩, read, found⟩
  have middle := first content between read
  exact later content between middle.1 middle.2 result left found

end

/-! ## Strings -/

theorem unit?_lt {a b c d : CodePoint} {u : Nat} (read : Hex.unit? a b c d = some u) :
    u < 0x10000 := by
  have below : ∀ {c : CodePoint} {v : Nat}, Hex.value? c = some v → v < 16 := by
    intro c v found
    simp only [Hex.value?, Bool.and_eq_true, decide_eq_true_eq] at found
    repeat' split at found
    all_goals cases found
    all_goals omega
  simp only [Hex.unit?, Option.bind_eq_bind, Option.bind_eq_some_iff] at read
  rcases read with ⟨a, first, b, second, c, third, d, fourth, same⟩
  have boundA := below first
  have boundB := below second
  have boundC := below third
  have boundD := below fourth
  cases same
  omega

theorem isSurrogate_of_escaped? {letter meaning : CodePoint}
    (known : escaped? letter = some meaning) : meaning.isSurrogate = false := by
  simp only [escaped?] at known
  repeat' split at known
  all_goals cases known
  all_goals rfl

theorem yields_cons {element : Piece} {reading : Except Fault (List Piece × Text)}
    {text rest : Text} (sound : element.Sound)
    (yields : Yields (fun elements => ∀ element ∈ elements, element.Sound) rest reading)
    (ending : rest <:+ text) :
    Yields (fun elements => ∀ element ∈ elements, element.Sound) text (do
      let (more, left) ← reading
      return (element :: more, left)) := by
  apply yields_bind (yields.of_suffix ending)
  intro more left later leaves
  exact yields_ok (List.forall_mem_cons.mpr ⟨sound, later⟩) leaves

theorem yields_pieces (opening : Text) {text : Text} (scalar : text.Scalar) :
    Yields (fun elements => ∀ element ∈ elements, element.Sound) text (pieces opening text) := by
  fun_induction pieces opening text with
  | case1 | case3 | case4 | case6 | case7 | case9 => exact yields_error _
  | case2 rest => exact yields_ok nofun (List.suffix_cons _ rest)
  | case5 d₃ d₂ d₁ d₀ next tail u found _ ih =>
    have ending : next :: tail <:+ _ := List.suffix_append [.ofChar '\\', .ofChar 'u', d₃, d₂, d₁, d₀] _
    exact yields_cons (unit?_lt found) (ih (scalar.of_suffix ending)) ending
  | case8 letter after _ meaning known _ ih =>
    have ending : after <:+ _ := List.suffix_append [.ofChar '\\', letter] after
    exact yields_cons (isSurrogate_of_escaped? known) (ih (scalar.of_suffix ending)) ending
  | case10 c rest _ _ _ ih =>
    have ending := List.suffix_cons c rest
    exact yields_cons (scalar c List.mem_cons_self) (ih (scalar.of_suffix ending)) ending

theorem yields_string {text : Text} (scalar : text.Scalar) :
    Yields Text.Joined text (string text) := by
  cases text with
  | nil => exact yields_error _
  | cons opened rest =>
    have ending := List.suffix_cons opened rest
    apply yields_bind ((yields_pieces (opened :: rest) (scalar.of_suffix ending)).of_suffix ending)
    intro elements left sound leaves
    exact yields_ok (joined_joinPieces sound) leaves

/-! ## Scalars -/

/-- A document all of whose texts are joined, the names of members included. -/
inductive Joined : Json → Prop where
  | null : Joined .null
  | bool (value : Bool) : Joined (.bool value)
  | int (value : Int) : Joined (.int value)
  | real (value : Decimal) : Joined (.real value)
  | str {text : Text} (joined : text.Joined) : Joined (.str text)
  | arr {items : List Json} (each : ∀ item ∈ items, Joined item) : Joined (.arr items)
  | obj {members : List (Text × Json)} (names : ∀ member ∈ members, Text.Joined member.1)
      (each : ∀ member ∈ members, Joined member.2) : Joined (.obj members)

theorem suffix_of_dropPrefix? {beginning text rest : Text}
    (dropped : Text.dropPrefix? beginning text = some rest) : rest <:+ text :=
  ⟨beginning, (Text.dropPrefix?_eq_some.mp dropped).symm⟩

theorem suffix_skipSpace (text : Text) : skipSpace text <:+ text := List.dropWhile_suffix isSpace

theorem suffix_decimals (text : Text) : (decimals text).2 <:+ text :=
  List.dropWhile_suffix isDecimal

theorem suffix_integral? {text digits rest : Text} (read : integral? text = some (digits, rest)) :
    rest <:+ text := by
  cases text with
  | nil => cases read
  | cons c tail =>
    rw [integral?] at read
    by_cases zero : c = '0'
    · rw [if_pos zero] at read
      cases read
      exact List.suffix_cons c _
    · rw [if_neg zero] at read
      split at read
      · cases read
        exact (suffix_decimals tail).trans (List.suffix_cons c tail)
      · cases read

theorem suffix_fraction (text : Text) : (fraction text).2 <:+ text := by
  fun_cases fraction text with
  | case1 point digit rest =>
    exact (suffix_decimals rest).trans (List.suffix_append [point, digit] rest)
  | case2 => exact List.suffix_rfl
  | case3 => exact List.suffix_rfl

theorem suffix_exponent? (text : Text) : (exponent? text).2 <:+ text := by
  fun_cases exponent? text with
  | case1 | case3 | case4 => exact List.suffix_rfl
  | case2 letter sign rest _ signed digits left _ read =>
    have ending : left <:+ if signed = true then rest else sign :: rest := by
      have split := suffix_decimals (if signed = true then rest else sign :: rest)
      rw [read] at split
      exact split
    split at ending
    · exact ending.trans (List.suffix_append [letter, sign] rest)
    · exact ending.trans (List.suffix_cons letter (sign :: rest))

theorem joined_of_number? {negative : Bool} {text left : Text} {document : Json}
    (read : number? negative text = some (document, left)) : document.Joined ∧ left <:+ text := by
  simp only [number?, Option.bind_eq_bind, Option.bind_eq_some_iff] at read
  rcases read with ⟨⟨whole, rest⟩, first, read⟩
  have afterWhole := suffix_integral? first
  have afterFraction := suffix_fraction rest
  have afterExponent := suffix_exponent? (fraction rest).2
  have ending := (afterExponent.trans afterFraction).trans afterWhole
  split at read
  · cases read
    exact ⟨.int _, ending⟩
  · cases read
    exact ⟨.real _, ending⟩

theorem joined_of_word? {text left : Text} {document : Json}
    (read : word? text = some (document, left)) : document.Joined ∧ left <:+ text := by
  rcases List.exists_of_findSome?_eq_some read with ⟨⟨spelling, meaning⟩, listed, dropped⟩
  rcases Option.map_eq_some_iff.mp dropped with ⟨rest, dropped, same⟩
  cases same
  refine ⟨?_, suffix_of_dropPrefix? dropped⟩
  simp only [words, List.mem_cons, List.not_mem_nil, or_false, Prod.mk.injEq] at listed
  rcases listed with ⟨_, same⟩ | ⟨_, same⟩ | ⟨_, same⟩ | ⟨_, same⟩ | ⟨_, same⟩ | ⟨_, same⟩
  all_goals cases same
  all_goals constructor

/-- A number may have a sign in front. -/
theorem joined_of_signed {text left : Text} {document : Json}
    (read : (match text with
      | sign :: rest => if sign = '-' then number? true rest else number? false text
      | [] => none) = some (document, left)) : document.Joined ∧ left <:+ text := by
  cases text with
  | nil => cases read
  | cons sign rest =>
    by_cases minus : sign = '-'
    · simp only [if_pos minus] at read
      have parts := joined_of_number? read
      exact ⟨parts.1, parts.2.trans (List.suffix_cons sign rest)⟩
    · simp only [if_neg minus] at read
      exact joined_of_number? read

theorem yields_scalar (text : Text) : Yields Joined text (scalar text) := by
  intro document left read
  rw [scalar.eq_def] at read
  cases word : word? text with
  | some reading =>
    rw [word] at read
    cases read
    exact joined_of_word? word
  | none =>
    rw [word] at read
    simp only at read
    split at read
    next signed =>
      cases read
      exact joined_of_signed signed
    next => cases read

/-! ## Values -/

/-- Members whose names and values are all joined. -/
def JoinedMembers (members : List (Text × Json)) : Prop :=
  (∀ member ∈ members, Text.Joined member.1) ∧ ∀ member ∈ members, Joined member.2

theorem joinedMembers_cons {name : Text} {content : Json} {more : List (Text × Json)}
    (nameJoined : name.Joined) (contentJoined : content.Joined) (later : JoinedMembers more) :
    JoinedMembers ((name, content) :: more) :=
  ⟨List.forall_mem_cons.mpr ⟨nameJoined, later.1⟩,
    List.forall_mem_cons.mpr ⟨contentJoined, later.2⟩⟩

theorem joinedMembers_nil : JoinedMembers [] := ⟨nofun, nofun⟩

section

variable {fuel : Nat}

theorem yields_value_step
    (yieldsItems : ∀ text : Text, text.Scalar →
      Yields (fun content => ∀ item ∈ content, Joined item) text (items fuel text))
    (yieldsMembers : ∀ text : Text, text.Scalar → Yields JoinedMembers text (members fuel text))
    (text : Text) (scalar : text.Scalar) : Yields Joined text (value (fuel + 1) text) := by
  rw [value.eq_def]
  cases text with
  | nil => exact yields_error _
  | cons c rest =>
    have spaced := (suffix_skipSpace rest).trans (List.suffix_cons c rest)
    simp only
    split
    · apply yields_bind (yields_string scalar)
      intro content left joined leaves
      exact yields_ok (.str joined) leaves
    split
    · cases skipped : skipSpace rest with
      | nil => exact yields_error _
      | cons next after =>
        rw [skipped] at spaced
        simp only
        split
        · exact yields_ok (.arr nofun) ((List.suffix_cons next after).trans spaced)
        · apply yields_bind ((yieldsItems _ (scalar.of_suffix spaced)).of_suffix spaced)
          intro content left each leaves
          exact yields_ok (.arr each) leaves
    split
    · cases skipped : skipSpace rest with
      | nil => exact yields_error _
      | cons next after =>
        rw [skipped] at spaced
        simp only
        split
        · exact yields_ok (.obj nofun nofun) ((List.suffix_cons next after).trans spaced)
        · apply yields_bind ((yieldsMembers _ (scalar.of_suffix spaced)).of_suffix spaced)
          intro content left each leaves
          exact yields_ok (.obj each.1 each.2) leaves
    · exact yields_scalar _

theorem yields_items_step
    (yieldsValue : ∀ text : Text, text.Scalar → Yields Joined text (value fuel text))
    (yieldsItems : ∀ text : Text, text.Scalar →
      Yields (fun content => ∀ item ∈ content, Joined item) text (items fuel text))
    (text : Text) (scalar : text.Scalar) :
    Yields (fun content => ∀ item ∈ content, Joined item) text (items (fuel + 1) text) := by
  rw [items.eq_def]
  apply yields_bind (yieldsValue text scalar)
  intro item left joined leaves
  have spaced := (suffix_skipSpace left).trans leaves
  simp only
  cases skipped : skipSpace left with
  | nil => exact yields_error _
  | cons next after =>
    rw [skipped] at spaced
    have ending := (List.suffix_cons next after).trans spaced
    simp only
    split
    · exact yields_ok (List.forall_mem_singleton.mpr joined) ending
    split
    · have later := (suffix_skipSpace after).trans ending
      apply yields_bind ((yieldsItems _ (scalar.of_suffix later)).of_suffix later)
      intro more left each leaves
      exact yields_ok (List.forall_mem_cons.mpr ⟨joined, each⟩) leaves
    · exact yields_error _

theorem yields_members_step
    (yieldsValue : ∀ text : Text, text.Scalar → Yields Joined text (value fuel text))
    (yieldsMembers : ∀ text : Text, text.Scalar → Yields JoinedMembers text (members fuel text))
    (text : Text) (scalar : text.Scalar) :
    Yields JoinedMembers text (members (fuel + 1) text) := by
  rw [members.eq_def]
  simp only
  split
  · exact yields_error _
  apply yields_bind (yields_string scalar)
  intro name left nameJoined leaves
  have spaced := (suffix_skipSpace left).trans leaves
  simp only
  cases skipped : skipSpace left with
  | nil => exact yields_error _
  | cons colon left =>
    rw [skipped] at spaced
    have valueStarts := (suffix_skipSpace left).trans ((List.suffix_cons colon left).trans spaced)
    simp only
    split
    · exact yields_error _
    apply yields_bind ((yieldsValue _ (scalar.of_suffix valueStarts)).of_suffix valueStarts)
    intro content left joined leaves
    have spaced := (suffix_skipSpace left).trans leaves
    simp only
    cases skipped : skipSpace left with
    | nil => exact yields_error _
    | cons next after =>
      rw [skipped] at spaced
      have ending := (List.suffix_cons next after).trans spaced
      simp only
      split
      · exact yields_ok (joinedMembers_cons nameJoined joined joinedMembers_nil) ending
      split
      · have later := (suffix_skipSpace after).trans ending
        apply yields_bind ((yieldsMembers _ (scalar.of_suffix later)).of_suffix later)
        intro more left each leaves
        exact yields_ok (joinedMembers_cons nameJoined joined each) leaves
      · exact yields_error _

end

/-- Values, items and members are read together, so the three statements are
proved together, by induction on the fuel. -/
theorem yields_value (fuel : Nat) :
    (∀ text : Text, text.Scalar → Yields Joined text (value fuel text)) ∧
      (∀ text : Text, text.Scalar →
        Yields (fun content => ∀ item ∈ content, Joined item) text (items fuel text)) ∧
      ∀ text : Text, text.Scalar → Yields JoinedMembers text (members fuel text) := by
  induction fuel with
  | zero =>
    refine ⟨?_, ?_, ?_⟩
    · intro text _
      exact yields_error _
    · intro text _
      exact yields_error _
    · intro text _
      exact yields_error _
  | succ fuel ih =>
    rcases ih with ⟨values, eachItem, eachMember⟩
    refine ⟨?_, ?_, ?_⟩
    · exact yields_value_step eachItem eachMember
    · exact yields_items_step values eachItem
    · exact yields_members_step values eachMember

/-- All texts of a document that is read from a text without surrogates are
joined. -/
theorem joined_of_parse {text : Text} {document : Json} (scalar : text.Scalar)
    (read : parse text = .ok document) : document.Joined := by
  have spaced := scalar.of_suffix (suffix_skipSpace text)
  simp only [parse] at read
  split at read
  · cases read
  rcases Outcome.bind_eq_ok.mp read with ⟨⟨content, left⟩, first, read⟩
  simp only at read
  split at read
  · cases read
    exact ((yields_value _).1 _ spaced document left first).1
  · cases read

end HookScript.Json
