import Relbase.Proofs.Table.Selecting
import Relbase.Proofs.Value.Comparing

/-!
# Kinds of columns

The kind of a column is that of one of its cells, and it decides how all the others are
compared.  So a cell that is not of the kind of its column may be both equal and unequal to
a literal, and what a condition says of a record may change with the other records.
-/

namespace Relbase

/-- What is true of a formula stays true if its leaves stay true. -/
theorem Formula.eval_mono {α : Type} {first second : α → Bool} {formula : Formula α}
    (h : ∀ test ∈ formula.leaves, first test = true → second test = true)
    (heval : formula.eval first = true) : formula.eval second = true := by
  induction formula with
  | leaf test => exact h test List.mem_cons_self heval
  | joined left connective right hleft hright =>
      obtain ⟨hleftLeaves, hrightLeaves⟩ := List.forall_mem_append.1 h
      cases connective with
      | and =>
          obtain ⟨hfirst, hsecond⟩ := Bool.and_eq_true_iff.1 heval
          exact Bool.and_eq_true_iff.2 ⟨hleft hleftLeaves hfirst, hright hrightLeaves hsecond⟩
      | or =>
          exact Bool.or_eq_true_iff.2 ((Bool.or_eq_true_iff.1 heval).imp (hleft hleftLeaves)
            (hright hrightLeaves))

namespace Table

variable {table : Table}

/-! ## Equal and unequal -/

theorem IsTotal.get?_eq (h : table.IsTotal) {name : Text}
    (hname : table.attributes.contains name = true) {id : Int} {record : Record}
    (hrecord : table.records.get? id = some record) :
    record.get? name.lower = some ((record.get? name.lower).getD []) := by
  have hcolumn := h _ (SortedMap.get?_eq_some_iff.1 hrecord) _ ((AttributeSet.contains_iff _ _).1 hname)
  obtain ⟨cell, hcell⟩ := Option.isSome_iff_exists.1 hcolumn
  rw [hcell]
  rfl

theorem IsTotal.select_leaf (h : table.IsTotal) {comparison : Comparison}
    (hname : table.attributes.contains comparison.column = true) :
    table.select (.leaf comparison) =
      .ok (table.idsWhere fun record => table.satisfies record comparison) := by
  rw [select, Formula.select, h.satisfying_eq, if_pos hname]

/-- The records that are selected both as equal and as unequal to a literal are those that
have the number of the literal in another spelling, in a column of texts or of booleans. -/
theorem selected_as_equal_and_notEqual_iff (h : table.IsTotal) {name : Text}
    (hname : table.attributes.contains name = true) (literal : Text) :
    ∃ equal unequal, table.select (.leaf ⟨name, .equal, literal⟩) = .ok equal ∧
      table.select (.leaf ⟨name, .notEqual, literal⟩) = .ok unequal ∧
        ∀ id, id ∈ equal ∧ id ∈ unequal ↔
          ∃ record cell, table.records.get? id = some record ∧
            record.get? name.lower = some cell ∧ Comparator.SameNumber cell literal ∧
              (table.columnKind name = .text ∧ cell ≠ literal ∨
                table.columnKind name = .boolean ∧ cell.lower ≠ literal.lower) := by
  refine ⟨_, _, h.select_leaf hname, h.select_leaf hname, fun id => ?_⟩
  rw [mem_idsWhere, mem_idsWhere]
  constructor
  · rintro ⟨⟨record, hrecord, hequal⟩, other, hother, hunequal⟩
    cases hrecord.symm.trans hother
    exact ⟨record, _, hrecord, h.get?_eq hname hrecord,
      Comparator.holds_equal_and_notEqual_iff.1 ⟨hequal, hunequal⟩⟩
  · rintro ⟨record, cell, hrecord, hcell, hboth⟩
    obtain ⟨hequal, hunequal⟩ := Comparator.holds_equal_and_notEqual_iff.2 hboth
    refine ⟨⟨record, hrecord, ?_⟩, record, hrecord, ?_⟩
    · rw [satisfies, hcell]
      exact hequal
    · rw [satisfies, hcell]
      exact hunequal

def codes : Table :=
  ((do
    let _ ← insert ["abc".toList]
    let _ ← insert ["1".toList] : Action Table Unit).runOn
      (ofSchema (.fresh "codes".toList ⟨[idName, "code".toList], by decide +kernel⟩))).2

theorem selected_as_equal_and_notEqual_codes :
    codes.IsTotal ∧ codes.attributes.contains "code".toList = true ∧
      ∃ equal unequal, codes.select (.leaf ⟨"code".toList, .equal, "abc".toList⟩) = .ok equal ∧
        codes.select (.leaf ⟨"code".toList, .notEqual, "abc".toList⟩) = .ok unequal ∧
          ∀ id, ¬ (id ∈ equal ∧ id ∈ unequal) := by
  have htotal : codes.IsTotal := by decide +kernel
  have hname : codes.attributes.contains "code".toList = true := by decide +kernel
  obtain ⟨equal, unequal, hequal, hunequal, hboth⟩ :=
    selected_as_equal_and_notEqual_iff htotal hname "abc".toList
  refine ⟨htotal, hname, equal, unequal, hequal, hunequal, fun id hid => ?_⟩
  obtain ⟨_, _, _, _, ⟨_, right, _, hright, _⟩, _⟩ := (hboth id).1 hid
  have hnone : Numeral.read? "abc".toList = none := by decide +kernel
  rw [hnone] at hright
  cases hright

/-- The number is both equal to another spelling of it and unequal. -/
theorem respelledNumber_equal_and_notEqual :
    codes.IsTotal ∧ codes.attributes.contains "code".toList = true ∧
      (codes.select (.leaf ⟨"code".toList, .equal, "1.0".toList⟩)).toOption = some [2] ∧
        (codes.select (.leaf ⟨"code".toList, .notEqual, "1.0".toList⟩)).toOption = some [1, 2] := by
  decide +kernel

/-! ## Other records -/

/-- What is true of a record among some records was true of it among others, unless the kind
of a column has changed so that a comparison may have gained. -/
theorem eval_of_not_gains {other : Table} {condition : Condition}
    (h : ∀ comparison ∈ condition.leaves, ¬ comparison.comparator.Gains
      (other.columnKind comparison.column) (table.columnKind comparison.column)) {record : Record}
    (heval : condition.eval (table.satisfies record) = true) :
    condition.eval (other.satisfies record) = true := by
  refine Formula.eval_mono (fun comparison hmem hsatisfies => ?_) heval
  by_contra hother
  exact h comparison hmem (Comparator.gains_of_holds (by simpa [satisfies] using hother) hsatisfies)

end Table

end Relbase
