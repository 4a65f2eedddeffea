import Relbase.Proofs.Number.Caseless

/-!
# Comparisons and kinds of columns

Equality and inequality are no opposites: each has a part that looks at numbers and parts
that look at texts, and the kind of the column decides which of them count.  Both hold where
two spellings of one number stand in a column of texts or booleans.  A value that fails a
comparison in a column of one kind may pass it in a column of another; `Gains` says for which
kinds.
-/

namespace Relbase.Comparator

/-! ## Equality and inequality -/

def SameNumber (stored literal : Text) : Prop :=
  ∃ left right, Numeral.read? stored = some left ∧ Numeral.read? literal = some right ∧
    left.toBinary64.rank = right.toBinary64.rank

theorem ranked_eq_true_iff {relation : Int → Int → Bool} {stored literal : Text} :
    ranked relation stored literal = true ↔
      ∃ left right, Numeral.read? stored = some left ∧ Numeral.read? literal = some right ∧
        relation left.toBinary64.rank right.toBinary64.rank = true := by
  rw [ranked, ranks?]
  cases Numeral.read? stored with
  | none => simp
  | some left =>
      cases Numeral.read? literal with
      | none => simp
      | some right => simp

theorem ranked_equal_iff {stored literal : Text} :
    ranked (fun left right => left == right) stored literal = true ↔ SameNumber stored literal := by
  simp [ranked_eq_true_iff, SameNumber]

theorem not_ranked_notEqual_of_lower_eq {stored literal : Text} (h : stored.lower = literal.lower) :
    ranked (fun left right => left != right) stored literal = false := by
  refine Bool.eq_false_iff.2 fun hranked => ?_
  obtain ⟨left, right, hleft, hright, hne⟩ := ranked_eq_true_iff.1 hranked
  have hsame : some left = some right := by
    calc
      some left = Numeral.read? stored.lower := by
        rw [Numeral.read?_lower (by rw [hleft]; rfl), hleft]
      _ = Numeral.read? literal.lower := by rw [h]
      _ = some right := by rw [Numeral.read?_lower (by rw [hright]; rfl), hright]
  cases hsame
  simp at hne

theorem not_ranked_notEqual_of_sameNumber {stored literal : Text} (h : SameNumber stored literal) :
    ranked (fun left right => left != right) stored literal = false := by
  obtain ⟨left, right, hleft, hright, hrank⟩ := h
  rw [ranked, ranks?, hleft, hright]
  simp [hrank]

/-- A value is both equal and unequal to a literal exactly if both are the same number in
different spellings, in a column of texts or, if they differ in lower case too, of booleans. -/
theorem holds_equal_and_notEqual_iff {column : ValueKind} {stored literal : Text} :
    holds .equal column stored literal = true ∧ holds .notEqual column stored literal = true ↔
      SameNumber stored literal ∧
        (column = .text ∧ stored ≠ literal ∨
          column = .boolean ∧ stored.lower ≠ literal.lower) := by
  simp only [holds, Bool.or_eq_true, Bool.and_eq_true, beq_iff_eq, bne_iff_ne, ranked_equal_iff]
  constructor
  · rintro ⟨hequal, hnotEqual⟩
    have hranked : ranked (fun left right => left != right) stored literal = false := by
      rcases hequal with (hnumber | rfl) | ⟨_, hlower⟩
      · exact not_ranked_notEqual_of_sameNumber hnumber
      · exact not_ranked_notEqual_of_lower_eq rfl
      · exact not_ranked_notEqual_of_lower_eq hlower
    have hdiffer : column = .text ∧ stored ≠ literal ∨
        column = .boolean ∧ stored.lower ≠ literal.lower := by
      rcases hnotEqual with (hnumber | hlower) | htext
      · rw [hranked] at hnumber
        cases hnumber
      · exact .inr hlower
      · exact .inl htext
    refine ⟨?_, hdiffer⟩
    rcases hequal with (hnumber | rfl) | ⟨hboolean, hlower⟩
    · exact hnumber
    · rcases hdiffer with ⟨_, hne⟩ | ⟨_, hne⟩ <;> exact absurd rfl hne
    · rcases hdiffer with ⟨htext, _⟩ | ⟨_, hne⟩
      · rw [htext] at hboolean
        cases hboolean
      · exact absurd hlower hne
  · rintro ⟨hnumber, hdiffer⟩
    exact ⟨.inl (.inl hnumber), hdiffer.elim .inr fun hlower => .inl (.inr hlower)⟩

/-! ## Columns that change their kind -/

/-- Whether some value that fails a comparison in a column of the old kind passes it in a
column of the new one. -/
def Gains (comparator : Comparator) (old new : ValueKind) : Prop :=
  match comparator with
  | .equal => new = .boolean ∧ old ≠ .boolean
  | .notEqual => new = .text ∧ old ≠ .text ∨ new = .boolean ∧ old ≠ .boolean ∧ old ≠ .text
  | _ => False

instance (comparator : Comparator) (old new : ValueKind) : Decidable (comparator.Gains old new) := by
  unfold Gains
  cases comparator <;> infer_instance

theorem exists_of_gains {comparator : Comparator} {old new : ValueKind}
    (h : comparator.Gains old new) :
    ∃ stored literal, comparator.holds old stored literal = false ∧
      comparator.holds new stored literal = true := by
  cases comparator with
  | equal =>
      obtain ⟨rfl, hold⟩ := h
      refine ⟨"true".toList, "TRUE".toList, ?_, by decide +kernel⟩
      cases old <;> first | exact absurd rfl hold | decide +kernel
  | notEqual =>
      rcases h with ⟨rfl, hold⟩ | ⟨rfl, hboolean, htext⟩
      · refine ⟨"TRUE".toList, "true".toList, ?_, by decide +kernel⟩
        cases old <;> first | exact absurd rfl hold | decide +kernel
      · refine ⟨"a".toList, "b".toList, ?_, by decide +kernel⟩
        cases old <;> first | exact absurd rfl hboolean | exact absurd rfl htext | decide +kernel
  | less => exact h.elim
  | lessOrEqual => exact h.elim
  | greater => exact h.elim
  | greaterOrEqual => exact h.elim
  | like => exact h.elim

theorem gains_of_holds {comparator : Comparator} {old new : ValueKind} {stored literal : Text}
    (hold : comparator.holds old stored literal = false)
    (hnew : comparator.holds new stored literal = true) : comparator.Gains old new := by
  have hkindless (h : comparator.holds old stored literal = comparator.holds new stored literal) :
      comparator.Gains old new := by
    rw [hold, hnew] at h
    cases h
  cases comparator with
  | equal =>
      simp only [holds, Bool.or_eq_false_iff, Bool.and_eq_false_imp, beq_iff_eq, beq_eq_false_iff_ne,
        ne_eq] at hold
      obtain ⟨⟨hranked, hne⟩, hboolean⟩ := hold
      simp only [holds, hranked, Bool.or_eq_true, Bool.and_eq_true, beq_iff_eq, Bool.false_eq_true,
        false_or] at hnew
      obtain ⟨hnew, hlower⟩ := hnew.resolve_left hne
      exact ⟨hnew, fun hold => hboolean hold hlower⟩
  | notEqual =>
      simp only [holds, Bool.or_eq_false_iff, Bool.and_eq_false_imp, beq_iff_eq,
        bne_eq_false_iff_eq] at hold
      obtain ⟨⟨hranked, hboolean⟩, htext⟩ := hold
      simp only [holds, hranked, Bool.or_eq_true, Bool.and_eq_true, beq_iff_eq, bne_iff_ne,
        Bool.false_eq_true, false_or] at hnew
      rcases hnew with ⟨hnew, hlower⟩ | ⟨hnew, hne⟩
      · exact .inr ⟨hnew, fun hold => hlower (hboolean hold),
          fun hold => hlower (congrArg Text.lower (htext hold))⟩
      · exact .inl ⟨hnew, fun hold => hne (htext hold)⟩
  | less => exact hkindless rfl
  | lessOrEqual => exact hkindless rfl
  | greater => exact hkindless rfl
  | greaterOrEqual => exact hkindless rfl
  | like => exact hkindless rfl

theorem gains_iff {comparator : Comparator} {old new : ValueKind} :
    comparator.Gains old new ↔
      ∃ stored literal, comparator.holds old stored literal = false ∧
        comparator.holds new stored literal = true :=
  ⟨exists_of_gains, fun ⟨_, _, hold, hnew⟩ => gains_of_holds hold hnew⟩

end Relbase.Comparator
