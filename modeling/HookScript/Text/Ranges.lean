import HookScript.Text.CodePoint

/-!
# Classes of code points as ranges

A class of code points is written down as its maximal ranges in ascending
order.  The search stops at the first range that begins after the code point,
so a question about an ASCII character is settled by the first few ranges of a
long table.
-/

namespace HookScript

/-- Ranges of code points, both ends included. -/
abbrev Ranges := List (Nat × Nat)

namespace Ranges

/-- Whether a number lies in one of the ranges, which must be in ascending
order. -/
def contains (n : Nat) : Ranges → Bool
  | [] => false
  | (first, last) :: rest => if n < first then false else n ≤ last || contains n rest

/-- The ranges are non-empty, ascending, and do not touch. -/
def ascending : Ranges → Bool
  | [] => true
  | [(first, last)] => first ≤ last
  | (first, last) :: (next, stop) :: rest =>
    first ≤ last && last + 1 < next && ascending ((next, stop) :: rest)

/-- A number that is found lies in a range of the table. -/
theorem exists_of_contains {n : Nat} {ranges : Ranges} (found : contains n ranges = true) :
    ∃ range ∈ ranges, range.1 ≤ n ∧ n ≤ range.2 := by
  induction ranges with
  | nil => exact absurd found Bool.false_ne_true
  | cons range rest ih =>
    obtain ⟨first, last⟩ := range
    simp only [contains] at found
    split at found
    · exact absurd found Bool.false_ne_true
    next reached =>
      rcases Bool.or_eq_true_iff.mp found with here | later
      · exact ⟨(first, last), List.mem_cons_self, Nat.not_lt.mp reached, of_decide_eq_true here⟩
      · obtain ⟨range, member, bounds⟩ := ih later
        exact ⟨range, List.mem_cons_of_mem _ member, bounds⟩

/-- The heads of an ascending table are below all later ranges. -/
theorem lt_of_ascending {first last : Nat} {rest : Ranges}
    (sorted : ascending ((first, last) :: rest) = true) :
    first ≤ last ∧ ascending rest = true ∧ ∀ range ∈ rest, last < range.1 := by
  induction rest generalizing first last with
  | nil =>
    simp only [ascending, decide_eq_true_eq] at sorted
    exact ⟨sorted, rfl, fun _ member => absurd member List.not_mem_nil⟩
  | cons range rest ih =>
    obtain ⟨next, stop⟩ := range
    simp only [ascending, Bool.and_eq_true, decide_eq_true_eq] at sorted
    obtain ⟨⟨nonempty, gap⟩, later⟩ := sorted
    refine ⟨nonempty, later, ?_⟩
    intro range member
    rcases List.mem_cons.mp member with here | there
    · rw [here]
      exact Nat.lt_of_succ_lt gap
    · have order := (ih later).2.2 range there
      have size := (ih later).1
      omega

/-- In an ascending table the search finds every number of every range. -/
theorem contains_of_mem {n : Nat} {ranges : Ranges} (sorted : ascending ranges = true)
    {range : Nat × Nat} (member : range ∈ ranges) (lower : range.1 ≤ n) (upper : n ≤ range.2) :
    contains n ranges = true := by
  induction ranges with
  | nil => exact absurd member List.not_mem_nil
  | cons head rest ih =>
    obtain ⟨first, last⟩ := head
    obtain ⟨nonempty, later, below⟩ := lt_of_ascending sorted
    simp only [contains]
    rcases List.mem_cons.mp member with here | there
    · subst here
      rw [if_neg (Nat.not_lt.mpr lower)]
      exact Bool.or_eq_true_iff.mpr (Or.inl (decide_eq_true upper))
    · have order := below range there
      rw [if_neg (by omega), ih later there, Bool.or_true]

end Ranges

end HookScript
