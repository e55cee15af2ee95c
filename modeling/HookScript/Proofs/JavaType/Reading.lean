import HookScript.Proofs.JavaType.Grammar
import HookScript.Proofs.Outcome

/-!
# Reading follows the grammar

A descriptor is read from its front, bracket by bracket, and the source form is
taken apart from its end, pair by pair.  For each of the two the results of
reading are the derivations of the grammar, and what the ends of a text look
like decides between the two the way the grammar does.
-/

namespace HookScript

open Outcome

namespace Primitive

theorem ofName?_eq_some {name : Text} {type : Primitive} :
    ofName? name = some type ↔ type ∈ all ∧ type.name = name := by
  have every : ∀ type ∈ all, ofName? type.name = some type := by decide
  constructor
  · intro found
    have same := List.find?_some found
    exact ⟨List.mem_of_find?_eq_some found, of_decide_eq_true same⟩
  · intro parts
    rcases parts with ⟨known, rfl⟩
    exact every type known

theorem ofName?_eq_none {name : Text} :
    ofName? name = none ↔ ∀ type ∈ all, type.name ≠ name := by
  simp only [ofName?, List.find?_eq_none, decide_eq_true_eq, ne_eq]

theorem ofDescriptor?_eq_some {letter : CodePoint} {type : Primitive} :
    ofDescriptor? letter = some type ↔ type ∈ all ∧ type.descriptor = [letter] := by
  have every : ∀ type ∈ all, (all.find? fun p => p.descriptor = type.descriptor) = some type := by
    decide
  constructor
  · intro found
    have same := List.find?_some found
    exact ⟨List.mem_of_find?_eq_some found, of_decide_eq_true same⟩
  · intro parts
    rcases parts with ⟨known, descriptor⟩
    rw [ofDescriptor?, ← descriptor]
    exact every type known

/-- A descriptor is one letter, and neither a bracket nor the `L` of a class. -/
theorem descriptor_eq_singleton : ∀ type ∈ all,
    ∃ letter, type.descriptor = [letter] ∧ letter ≠ '[' ∧ letter ≠ 'L' := by
  have every : ∀ type ∈ all, type.descriptor ≠ [] ∧ type.descriptor.tail = [] ∧
      .ofChar '[' ∉ type.descriptor ∧ .ofChar 'L' ∉ type.descriptor := by decide
  intro type known
  rcases every type known with ⟨nonempty, short, noBracket, noClass⟩
  cases letters : type.descriptor with
  | nil => exact (nonempty letters).elim
  | cons letter rest =>
    rw [letters] at short noBracket noClass
    rw [List.tail_cons] at short
    subst short
    exact ⟨letter, rfl, fun same => noBracket (same ▸ List.mem_cons_self),
      fun same => noClass (same ▸ List.mem_cons_self)⟩

end Primitive

namespace JavaType

theorem classNamed_eq_ok {name : Text} {type : JavaType} :
    classNamed name = .ok type ↔ BinaryName name ∧ object name = type := by
  rw [← NameFlaw.of?_eq_none_iff_binaryName, classNamed]
  cases NameFlaw.of? name with
  | none => simp only [true_and, Except.ok.injEq]
  | some flaw => simp only [reduceCtorEq, false_and]

/-! ## Descriptors -/

theorem readBase_of_baseDescriptor {written : Text} {base : BaseType}
    (derived : BaseDescriptor written base) (after : Text) :
    readBase (written ++ after) = .ok (⟨base, 0⟩, after) := by
  cases derived with
  | @letter type known =>
    rcases Primitive.descriptor_eq_singleton type known with ⟨letter, descriptor, _, noClass⟩
    rw [descriptor, List.singleton_append, readBase, if_neg noClass,
      Primitive.ofDescriptor?_eq_some.mpr ⟨known, descriptor⟩]
    rfl
  | @named name unended valid =>
    have named : classNamed (name.replaceEach '/' '.') = .ok (object (name.replaceEach '/' '.')) :=
      classNamed_eq_ok.mpr ⟨valid, rfl⟩
    change readBase (.ofChar 'L' :: (name ++ [.ofChar ';'] ++ after)) = _
    rw [readBase, if_pos rfl, List.append_assoc, List.singleton_append,
      Text.dropWhile_append_mark unended, Text.takeWhile_append_mark unended]
    simp only [named, ok_bind, pure_eq_ok]
    rfl

theorem baseDescriptor_of_readBase {text after : Text} {type : JavaType}
    (read : readBase text = .ok (type, after)) :
    ∃ written base, BaseDescriptor written base ∧ type = ⟨base, 0⟩ ∧ text = written ++ after := by
  cases text with
  | nil => cases read
  | cons letter rest =>
    rw [readBase] at read
    by_cases isClass : letter = 'L'
    · rw [if_pos isClass] at read
      cases behind : rest.dropWhile fun c => c ≠ .ofChar ';' with
      | nil =>
        rw [behind] at read
        cases read
      | cons mark following =>
        rw [behind] at read
        rcases bind_eq_ok.mp read with ⟨found, named, same⟩
        rcases classNamed_eq_ok.mp named with ⟨valid, rfl⟩
        cases same
        have unended := Text.not_mem_takeWhile (.ofChar ';') rest
        refine ⟨_, _, .named unended valid, rfl, ?_⟩
        rw [isClass, List.append_assoc, List.append_assoc]
        exact congrArg _ (Text.eq_append_mark behind).2
    · rw [if_neg isClass] at read
      cases known : Primitive.ofDescriptor? letter with
      | none =>
        rw [known] at read
        cases read
      | some found =>
        rw [known] at read
        cases read
        rcases Primitive.ofDescriptor?_eq_some.mp known with ⟨listed, descriptor⟩
        exact ⟨_, _, .letter listed, rfl, by rw [descriptor]; rfl⟩

theorem sized_succ {base : BaseType} {dims : Nat} :
    Sized base (dims + 1) ↔ Sized base dims ∧ JavaType.mk base dims ≠ void := by
  unfold Sized
  constructor
  · intro sized
    refine ⟨fun isVoid => (Nat.succ_ne_zero dims (sized isVoid)).elim, ?_⟩
    intro same
    exact Nat.succ_ne_zero dims (sized (congrArg JavaType.base same))
  · intro parts isVoid
    rcases parts with ⟨sized, notVoid⟩
    have flat := sized isVoid
    subst isVoid flat
    exact (notVoid rfl).elim

/-- A base starts with a letter, so the brackets in front of it are counted to
their end. -/
theorem BaseDescriptor.head_ne_bracket {written : Text} {base : BaseType}
    (derived : BaseDescriptor written base) : ∃ c rest, written = c :: rest ∧ c ≠ '[' := by
  cases derived with
  | @letter type known =>
    rcases Primitive.descriptor_eq_singleton type known with ⟨letter, descriptor, noBracket, _⟩
    exact ⟨letter, [], descriptor, noBracket⟩
  | @named name unended valid =>
    exact ⟨.ofChar 'L', name ++ ";", rfl, by decide⟩

theorem readDescriptor_append {written : Text} {base : BaseType} {dims : Nat}
    (derived : BaseDescriptor written base) (sized : Sized base dims) (after : Text) :
    readDescriptor (List.replicate dims (.ofChar '[') ++ written ++ after) =
      .ok (⟨base, dims⟩, after) := by
  induction dims with
  | zero =>
    rcases derived.head_ne_bracket with ⟨c, rest, starts, noBracket⟩
    have read := readBase_of_baseDescriptor derived after
    rw [List.replicate_zero, List.nil_append]
    rw [starts, List.cons_append] at read ⊢
    rw [readDescriptor, if_neg noBracket, read]
  | succ dims ih =>
    rcases sized_succ.mp sized with ⟨inner, notVoid⟩
    rw [List.replicate_succ, List.cons_append, List.cons_append, readDescriptor, if_pos rfl, ih inner]
    simp only [ok_bind, if_neg notVoid, pure_eq_ok]
    rfl

theorem exists_of_readDescriptor {text after : Text} {type : JavaType}
    (read : readDescriptor text = .ok (type, after)) :
    ∃ written, BaseDescriptor written type.base ∧ Sized type.base type.dims ∧
      text = List.replicate type.dims (.ofChar '[') ++ written ++ after := by
  induction text generalizing type with
  | nil => cases read
  | cons c rest ih =>
    rw [readDescriptor] at read
    by_cases bracket : c = '['
    · rw [if_pos bracket] at read
      rcases bind_eq_ok.mp read with ⟨⟨element, following⟩, inner, checked⟩
      rcases check_eq_ok.mp checked with ⟨notVoid, same⟩
      cases same
      rcases ih inner with ⟨written, derived, sized, whole⟩
      refine ⟨written, derived, sized_succ.mpr ⟨sized, notVoid⟩, ?_⟩
      rw [bracket, whole]
      rfl
    · rw [if_neg bracket] at read
      rcases baseDescriptor_of_readBase read with ⟨written, base, derived, rfl, whole⟩
      exact ⟨written, derived, fun _ => rfl, whole⟩

theorem ofDescriptor_eq_ok {text : Text} {type : JavaType} :
    ofDescriptor text = .ok type ↔ ∃ written, BaseDescriptor written type.base ∧
      Sized type.base type.dims ∧ text = List.replicate type.dims (.ofChar '[') ++ written := by
  constructor
  · intro read
    rcases bind_eq_ok.mp read with ⟨⟨found, after⟩, front, checked⟩
    rcases check_eq_ok.mp checked with ⟨finished, same⟩
    cases same
    rcases exists_of_readDescriptor front with ⟨written, derived, sized, whole⟩
    rw [Decidable.not_not.mp finished, List.append_nil] at whole
    exact ⟨written, derived, sized, whole⟩
  · intro parts
    rcases parts with ⟨written, derived, sized, rfl⟩
    have front := readDescriptor_append derived sized []
    rw [List.append_nil] at front
    simp only [ofDescriptor, front, ok_bind, ne_eq, not_true_eq_false, if_false, pure_eq_ok]

/-! ## Source form -/

theorem takeBrackets_of_isBlank {c : CodePoint} (blank : c.isBlank = true) (text : Text) :
    takeBrackets (c :: text) = takeBrackets text := by
  have noBracket : ¬(c = ']' ∧ True) := by
    intro parts
    rcases parts with ⟨same, _⟩
    subst same
    exact Bool.false_ne_true ((by decide : (CodePoint.ofChar ']').isBlank = false).symm.trans blank)
  cases text with
  | nil => simp only [takeBrackets, blank, if_true]
  | cons d rest =>
    rw [takeBrackets, if_neg fun pair => noBracket ⟨pair.1, trivial⟩, if_pos blank]

theorem takeBrackets_blanks {blanks : Text} (blank : blanks.isBlank = true) (text : Text) :
    takeBrackets (blanks ++ text) = takeBrackets text := by
  induction blanks with
  | nil => rfl
  | cons c rest ih =>
    simp only [Text.isBlank, List.all_cons, Bool.and_eq_true] at blank
    rw [List.cons_append, takeBrackets_of_isBlank blank.1, ih blank.2]

theorem takeBrackets_of_visible {c : CodePoint} {text : Text} (visible : c.isBlank = false)
    (noBracket : c ≠ ']') : takeBrackets (c :: text) = (0, c :: text) := by
  cases text with
  | nil => simp only [takeBrackets, visible, Bool.false_eq_true, if_false]
  | cons d rest =>
    rw [takeBrackets, if_neg fun pair => noBracket pair.1, visible, if_neg Bool.false_ne_true]

/-- The pairs behind a base are counted, whatever blanks follow them. -/
theorem takeBrackets_append {base brackets : Text} {dims : Nat} (paired : Brackets dims brackets)
    (plain : takeBrackets base.reverse = (0, base.reverse)) (blanks : Text)
    (blank : blanks.isBlank = true) :
    takeBrackets (base ++ brackets ++ blanks).reverse = (dims, base.reverse) := by
  induction paired generalizing blanks with
  | none =>
    have reversed : Text.isBlank blanks.reverse = true := by
      rw [Text.isBlank, List.all_reverse]
      exact blank
    rw [List.append_nil, List.reverse_append, takeBrackets_blanks reversed, plain]
  | @pair dims before gap more gapBlank ih =>
    have reversed : Text.isBlank blanks.reverse = true := by
      rw [Text.isBlank, List.all_reverse]
      exact blank
    have inner := ih gap gapBlank
    rw [List.reverse_append, takeBrackets_blanks reversed]
    rw [show base ++ (before ++ gap ++ Text.ofString "[]") =
      base ++ before ++ gap ++ [.ofChar '[', .ofChar ']'] by simp only [List.append_assoc]; rfl]
    rw [List.reverse_append]
    change takeBrackets (.ofChar ']' :: .ofChar '[' :: (base ++ before ++ gap).reverse) = _
    rw [takeBrackets, if_pos ⟨rfl, rfl⟩, inner]

theorem exists_of_takeBrackets (text : Text) :
    ∃ brackets blanks, Brackets (takeBrackets text).1 brackets ∧ Text.isBlank blanks = true ∧
      text.reverse = (takeBrackets text).2.reverse ++ brackets ++ blanks := by
  induction text using takeBrackets.induct with
  | case1 close openBracket rest pair dims base found ih =>
    rcases ih with ⟨brackets, blanks, paired, blank, whole⟩
    rw [takeBrackets, if_pos pair]
    refine ⟨brackets ++ blanks ++ "[]", [], .pair paired blank, rfl, ?_⟩
    rw [List.reverse_cons, List.reverse_cons, whole, pair.1, pair.2]
    simp only [List.append_assoc, List.append_nil]
    rfl
  | case2 close openBracket rest noPair blank ih =>
    rcases ih with ⟨brackets, blanks, paired, blanksBlank, whole⟩
    rw [takeBrackets, if_neg noPair, if_pos blank]
    refine ⟨brackets, blanks ++ [close], paired, ?_, ?_⟩
    · simp only [Text.isBlank, List.all_append, List.all_cons, List.all_nil, blank, Bool.and_true]
      exact blanksBlank
    · rw [List.reverse_cons, whole]
      simp only [List.append_assoc]
  | case3 close openBracket rest noPair visible =>
    rw [takeBrackets, if_neg noPair, if_neg visible]
    exact ⟨[], [], .none, rfl, by simp only [List.append_nil]⟩
  | case4 c blank =>
    rw [takeBrackets, if_pos blank]
    refine ⟨[], [c], .none, ?_, rfl⟩
    simp only [Text.isBlank, List.all_cons, blank, List.all_nil, Bool.and_true]
  | case5 c visible =>
    rw [takeBrackets, if_neg visible]
    exact ⟨[], [], .none, rfl, rfl⟩
  | case6 => exact ⟨[], [], .none, rfl, rfl⟩

theorem BaseName.dotted {name : Text} {base : BaseType} (written : BaseName name base) :
    Dotted name := by
  cases written with
  | @keyword type known => exact (Primitive.binaryName_name type known).dotted
  | named valid _ => exact valid.dotted

theorem BaseName.ne_nil {name : Text} {base : BaseType} (written : BaseName name base) :
    name ≠ [] := by
  cases written with
  | @keyword type known => exact (Primitive.binaryName_name type known).ne_nil
  | named valid _ => exact valid.ne_nil

theorem takeBrackets_baseName {name : Text} {base : BaseType} (written : BaseName name base) :
    takeBrackets name.reverse = (0, name.reverse) := by
  cases backwards : name.reverse with
  | nil => exact (written.ne_nil (List.reverse_eq_nil_iff.mp backwards)).elim
  | cons c rest =>
    have member : c ∈ name := by
      rw [← List.mem_reverse, backwards]
      exact List.mem_cons_self
    refine takeBrackets_of_visible (written.dotted.isBlank member) ?_
    intro bracket
    subst bracket
    exact written.dotted.not_mem ']' (by decide) (by decide) member

theorem ofBase_eq_ok {name : Text} {dims : Nat} {type : JavaType} :
    ofBase name dims = .ok type ↔
      BaseName name type.base ∧ Sized type.base type.dims ∧ type.dims = dims := by
  have noBrackets : Dotted name →
      ¬(name.contains (.ofChar '[') || name.contains (.ofChar ']')) = true := by
    intro dotted found
    rw [Bool.or_eq_true, List.contains_iff_mem, List.contains_iff_mem] at found
    rcases found with opening | closing
    · exact dotted.not_mem '[' (by decide) (by decide) opening
    · exact dotted.not_mem ']' (by decide) (by decide) closing
  unfold ofBase
  constructor
  · intro read
    rcases check_eq_ok.mp read with ⟨_, read⟩
    cases keyword : Primitive.ofName? name with
    | none =>
      rw [keyword] at read
      rcases bind_eq_ok.mp read with ⟨found, named, same⟩
      rcases classNamed_eq_ok.mp named with ⟨valid, rfl⟩
      cases same
      exact ⟨.named valid (Primitive.ofName?_eq_none.mp keyword), nofun, rfl⟩
    | some found =>
      rw [keyword] at read
      rcases check_eq_ok.mp read with ⟨noVoid, same⟩
      cases same
      rcases Primitive.ofName?_eq_some.mp keyword with ⟨known, rfl⟩
      refine ⟨.keyword known, ?_, rfl⟩
      intro isVoid
      cases isVoid
      simpa only [Bool.and_eq_true, decide_eq_true_eq, and_true, Nat.pos_iff_ne_zero,
        Decidable.not_not] using noVoid
  · obtain ⟨base, found⟩ := type
    intro parts
    rcases parts with ⟨written, sized, rfl⟩
    rw [check_eq_ok]
    refine ⟨noBrackets written.dotted, ?_⟩
    cases written with
    | @keyword type known =>
      rw [Primitive.ofName?_eq_some.mpr ⟨known, rfl⟩]
      refine check_eq_ok.mpr ⟨?_, rfl⟩
      intro arrayOfVoid
      rw [Bool.and_eq_true, decide_eq_true_eq, decide_eq_true_eq] at arrayOfVoid
      exact Nat.ne_of_gt arrayOfVoid.1 (sized (congrArg BaseType.primitive arrayOfVoid.2))
    | named valid free =>
      rw [Primitive.ofName?_eq_none.mpr free]
      exact bind_eq_ok.mpr ⟨object name, classNamed_eq_ok.mpr ⟨valid, rfl⟩, rfl⟩

theorem ofSource_of_baseName {name brackets : Text} {base : BaseType} {dims : Nat}
    (written : BaseName name base) (paired : Brackets dims brackets) (sized : Sized base dims) :
    ofSource (name ++ brackets) = .ok ⟨base, dims⟩ := by
  have counted := takeBrackets_append paired (takeBrackets_baseName written) [] rfl
  rw [List.append_nil] at counted
  rw [ofSource, counted]
  change ofBase name.reverse.reverse dims = _
  rw [List.reverse_reverse]
  exact ofBase_eq_ok.mpr ⟨written, sized, rfl⟩

/-- Blanks at the end of a text would be dropped as well; a trimmed text has
none. -/
theorem exists_of_ofSource {text : Text} {type : JavaType} (read : ofSource text = .ok type)
    (visible : ∀ before c, text = before ++ [c] → c.isBlank = false) :
    ∃ name brackets, BaseName name type.base ∧ Brackets type.dims brackets ∧
      Sized type.base type.dims ∧ text = name ++ brackets := by
  rcases exists_of_takeBrackets text.reverse with ⟨brackets, blanks, paired, blank, whole⟩
  rcases ofBase_eq_ok.mp read with ⟨written, sized, dims⟩
  rw [← dims] at paired
  rw [List.reverse_reverse] at whole
  refine ⟨_, brackets, written, paired, sized, ?_⟩
  rcases List.eq_nil_or_concat blanks with none | ⟨before, c, some⟩
  · rw [none, List.append_nil] at whole
    exact whole
  · rw [List.concat_eq_append] at some
    subst some
    have ends := visible _ c (whole.trans (List.append_assoc _ before [c]).symm)
    simp only [Text.isBlank, List.all_append, List.all_cons, ends, Bool.false_and,
      Bool.and_false, Bool.false_eq_true] at blank

/-! ## The choice between the two -/

theorem looksLikeDescriptor_iff {text : Text} :
    looksLikeDescriptor text = true ↔
      text.head? = some (.ofChar '[') ∨
        (text.head? = some (.ofChar 'L') ∧ text.getLast? = some (.ofChar ';')) ∨
        ∃ type ∈ Primitive.all, type.descriptor = text := by
  simp only [looksLikeDescriptor, Bool.or_eq_true, Bool.and_eq_true, decide_eq_true_eq, or_assoc]
  refine or_congr Iff.rfl (or_congr Iff.rfl ?_)
  constructor
  · intro single
    split at single
    next letter =>
      rcases Option.isSome_iff_exists.mp single with ⟨type, found⟩
      exact ⟨type, Primitive.ofDescriptor?_eq_some.mp found⟩
    next => cases single
  · intro parts
    rcases parts with ⟨type, known, rfl⟩
    rcases Primitive.descriptor_eq_singleton type known with ⟨letter, descriptor, _, _⟩
    rw [descriptor]
    exact Option.isSome_iff_exists.mpr
      ⟨type, Primitive.ofDescriptor?_eq_some.mpr ⟨known, descriptor⟩⟩

theorem looksLikeDescriptor_of_baseDescriptor {written : Text} {base : BaseType}
    (derived : BaseDescriptor written base) (dims : Nat) :
    looksLikeDescriptor (List.replicate dims (.ofChar '[') ++ written) = true := by
  rw [looksLikeDescriptor_iff]
  cases dims with
  | succ dims => exact Or.inl rfl
  | zero =>
    right
    rw [List.replicate_zero, List.nil_append]
    cases derived with
    | @letter type known => exact Or.inr ⟨type, known, rfl⟩
    | @named name unended valid =>
      have ends : (Text.ofString "L" ++ name ++ [CodePoint.ofChar ';']).getLast? =
          some (.ofChar ';') :=
        List.getLast?_concat
      exact Or.inl ⟨rfl, ends⟩

/-- Nothing that starts with a name and goes on with brackets looks like a
descriptor, a lone descriptor letter apart. -/
theorem not_looksLikeDescriptor_of_baseName {name brackets : Text} {base : BaseType} {dims : Nat}
    (written : BaseName name base) (paired : Brackets dims brackets)
    (noLetter : ∀ type ∈ Primitive.all, type.descriptor ≠ name ++ brackets) :
    ¬looksLikeDescriptor (name ++ brackets) = true := by
  rw [looksLikeDescriptor_iff]
  intro either
  rcases either with bracket | ⟨_, semicolon⟩ | ⟨type, known, same⟩
  · cases starts : name with
    | nil => exact written.ne_nil starts
    | cons c rest =>
      rw [starts] at bracket
      cases bracket
      exact written.dotted.not_mem '[' (by decide) (by decide)
        (starts ▸ List.mem_cons_self)
  · cases paired with
    | none =>
      rw [List.append_nil] at semicolon
      exact written.dotted.not_mem ';' (by decide) (by decide)
        (List.mem_of_getLast? semicolon)
    | pair more blank =>
      rw [← List.append_assoc, List.getLast?_append] at semicolon
      have bracket : some (CodePoint.ofChar ']') = some (.ofChar ';') := semicolon
      exact absurd bracket (by decide)
  · exact noLetter type known same

/-! ## Reading -/

theorem ofTrimmed_of_denotes {text : Text} {type : JavaType} (derived : Denotes text type) :
    ofTrimmed text = .ok type := by
  cases derived with
  | @descriptor base dims written derived sized =>
    have nonempty : List.replicate dims (CodePoint.ofChar '[') ++ written ≠ [] := by
      rcases derived.head_ne_bracket with ⟨c, rest, starts, _⟩
      rw [starts]
      exact List.append_ne_nil_of_right_ne_nil _ (List.cons_ne_nil c rest)
    rw [ofTrimmed, if_neg nonempty, if_pos (looksLikeDescriptor_of_baseDescriptor derived dims)]
    exact ofDescriptor_eq_ok.mpr ⟨written, derived, sized, rfl⟩
  | source written paired sized noLetter =>
    rw [ofTrimmed, if_neg (List.append_ne_nil_of_left_ne_nil written.ne_nil _),
      if_neg (not_looksLikeDescriptor_of_baseName written paired noLetter)]
    exact ofSource_of_baseName written paired sized

theorem denotes_of_ofTrimmed {text : Text} {type : JavaType} (read : ofTrimmed text = .ok type)
    (visible : ∀ before c, text = before ++ [c] → c.isBlank = false) : Denotes text type := by
  unfold ofTrimmed at read
  split at read
  · cases read
  · split at read
    next =>
      rcases ofDescriptor_eq_ok.mp read with ⟨written, derived, sized, rfl⟩
      exact .descriptor derived sized
    next otherwise =>
      rcases exists_of_ofSource read visible with ⟨name, brackets, written, paired, sized, rfl⟩
      refine .source written paired sized ?_
      intro letter known same
      exact otherwise (looksLikeDescriptor_iff.mpr (Or.inr (Or.inr ⟨letter, known, same⟩)))

/-- Reading gives a type exactly if the trimmed text denotes it. -/
theorem parse_eq_ok_iff {text : Text} {type : JavaType} :
    parse text = .ok type ↔ Denotes text.trim type := by
  unfold parse
  constructor
  · intro read
    cases found : ofTrimmed text.trim with
    | error flaw =>
      rw [found] at read
      cases read
    | ok same =>
      rw [found] at read
      cases read
      exact denotes_of_ofTrimmed found fun _ _ => Text.isBlank_getLast_trim
  · intro derived
    rw [ofTrimmed_of_denotes derived]

theorem text_of_parse_eq_error {text : Text} {error : NotationError}
    (read : parse text = .error error) : error.text = text.trim := by
  unfold parse at read
  split at read
  · cases read
  · cases read
    rfl

/-- The grammar is what reading accepts: with the blanks around it gone, a text
is read as a type if and only if it denotes that type, and a text that denotes
nothing is an error that carries it. -/
theorem parse_exactly_grammar (text : Text) :
    (∀ type, parse text = .ok type ↔ Denotes text.trim type) ∧
      ((¬∃ type, Denotes text.trim type) ↔ ∃ flaw, parse text = .error ⟨flaw, text.trim⟩) := by
  refine ⟨fun type => parse_eq_ok_iff, ?_⟩
  constructor
  · intro meaningless
    cases read : parse text with
    | ok type => exact (meaningless ⟨type, parse_eq_ok_iff.mp read⟩).elim
    | error error =>
      refine ⟨error.flaw, ?_⟩
      rw [← text_of_parse_eq_error read]
  · rintro ⟨flaw, failed⟩ ⟨type, derived⟩
    cases failed.symm.trans (parse_eq_ok_iff.mpr derived)

end JavaType

end HookScript
