import Relbase.Proofs.Number.Grammar
import Relbase.Proofs.Value.Comparing

/-!
# The order of numerals

Two numerals are compared as numbers by every comparison but the containment of texts.  Equality
looks at the texts too, but only where the numbers are different, and then it finds the texts
different as well.  So in a column of any kind one numeral is less than, equal to or greater than
another, and no two of these; and what is no numeral has no place in the order.
-/

namespace Relbase.Comparator

open Numeral

variable {stored literal : Text}

theorem ranked_of_numerals {left right : Numeral} (hstored : read? stored = some left)
    (hliteral : read? literal = some right) (relation : Int → Int → Bool) :
    ranked relation stored literal =
      relation left.toBinary64.rank right.toBinary64.rank := by
  simp [ranked, ranks?, hstored, hliteral]

theorem ranked_of_not_numerals (h : ¬ (IsNumeral stored ∧ IsNumeral literal))
    (relation : Int → Int → Bool) : ranked relation stored literal = false := by
  refine Bool.eq_false_iff.2 fun hranked => h ?_
  obtain ⟨left, right, hleft, hright, -⟩ := ranked_eq_true_iff.1 hranked
  exact ⟨isSome_read?_iff.1 (by simp [hleft]), isSome_read?_iff.1 (by simp [hright])⟩

theorem holds_equal_of_numerals (column : ValueKind) {left right : Numeral}
    (hstored : read? stored = some left) (hliteral : read? literal = some right) :
    holds .equal column stored literal =
      (left.toBinary64.rank == right.toBinary64.rank) := by
  have hnumbers := ranked_of_numerals hstored hliteral
  by_cases hrank : left.toBinary64.rank = right.toBinary64.rank
  · simp [holds, hnumbers, hrank]
  · have hlower : stored.lower ≠ literal.lower := by
      intro heq
      have hsame := not_ranked_notEqual_of_lower_eq heq
      simp [hnumbers, hrank] at hsame
    have htexts : stored ≠ literal := fun heq => hlower (congrArg Text.lower heq)
    simp [holds, hnumbers, beq_false_of_ne hrank, beq_false_of_ne htexts, beq_false_of_ne hlower]

/-- Of two numerals one is less than, equal to or greater than the other, whatever the kind of
the column, and the other two comparisons follow from that; there is no order between texts of
which one is no numeral. -/
theorem numerals_are_ordered (column : ValueKind) (stored literal : Text) :
    (IsNumeral stored ∧ IsNumeral literal →
      [less, equal, greater].countP (·.holds column stored literal) = 1 ∧
      holds .lessOrEqual column stored literal =
        (holds .less column stored literal || holds .equal column stored literal) ∧
      holds .greaterOrEqual column stored literal =
        (holds .greater column stored literal || holds .equal column stored literal)) ∧
    (¬ (IsNumeral stored ∧ IsNumeral literal) →
      ∀ comparator ∈ [less, lessOrEqual, greater, greaterOrEqual],
        comparator.holds column stored literal = false) := by
  constructor
  · rintro ⟨hstored, hliteral⟩
    obtain ⟨left, hleft⟩ := Option.isSome_iff_exists.1 (isSome_read?_iff.2 hstored)
    obtain ⟨right, hright⟩ := Option.isSome_iff_exists.1 (isSome_read?_iff.2 hliteral)
    have hequal := holds_equal_of_numerals column hleft hright
    have hnumbers := ranked_of_numerals hleft hright
    simp only [List.countP_cons, List.countP_nil, hequal]
    simp only [holds, hnumbers, beq_iff_eq, decide_eq_true_eq]
    generalize left.toBinary64.rank = a, right.toBinary64.rank = b
    rcases Int.lt_trichotomy a b with hlt | rfl | hgt
    · have hne : a ≠ b := Int.ne_of_lt hlt
      have hle : a ≤ b := Int.le_of_lt hlt
      simp [hlt, hle, hne, beq_false_of_ne hne, Int.not_lt.2 hle, Int.not_le.2 hlt]
    · simp
    · have hne : a ≠ b := Int.ne_of_gt hgt
      have hle : b ≤ a := Int.le_of_lt hgt
      simp [hgt, hle, hne, beq_false_of_ne hne, Int.not_lt.2 hle, Int.not_le.2 hgt]
  · intro h comparator hcomparator
    have hnone := ranked_of_not_numerals h
    simp only [List.mem_cons, List.not_mem_nil, or_false] at hcomparator
    rcases hcomparator with rfl | rfl | rfl | rfl <;> simp [holds, hnone]

end Relbase.Comparator
