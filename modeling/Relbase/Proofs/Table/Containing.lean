import Relbase.Proofs.Table.Selecting
import Relbase.Proofs.Text.Lowering

/-!
# Containment without regard to case

A value is like a literal if the literal occurs in it, both taken in lower case as wholes.  A
literal that occurs in the value as it is spelled is found by that unless it has a capital sigma
at an end which is final there and not in the value, or the other way round.  Such a literal is
missed in some value; every other literal is found wherever it occurs, whatever the kind of the
column.
-/

namespace Relbase

theorem Text.occursIn_iff {part text : Text} : occursIn part text = true ↔ part <:+: text := by
  induction text with
  | nil => simp [occursIn]
  | cons c rest ih =>
      rw [occursIn, Bool.or_eq_true, ih, List.isPrefixOf_iff_prefix, List.infix_cons_iff]

namespace Comparator

theorem holds_like_iff {column : ValueKind} {stored literal : Text} :
    holds .like column stored literal = true ↔ literal.lower <:+: stored.lower :=
  Text.occursIn_iff

theorem holds_like_of_not_shiftsBetween {before literal after : Text}
    (h : ¬ literal.ShiftsBetween before after) (column : ValueKind) :
    holds .like column (before ++ literal ++ after) literal = true :=
  holds_like_iff.2 (Text.lower_infix_of_not_shiftsBetween h)

theorem holds_like_of_infix_iff {literal : Text} :
    (∀ column stored, literal <:+: stored → holds .like column stored literal = true) ↔
      ¬ literal.HasOpenSigma := by
  constructor
  · intro h hopen
    obtain ⟨whole, hpart, hmissed⟩ := hopen.exists_not_infix
    exact hmissed (holds_like_iff.1 (h .text whole hpart))
  · rintro hclosed column _ ⟨before, after, rfl⟩
    exact holds_like_of_not_shiftsBetween (mt Text.ShiftsBetween.hasOpenSigma hclosed) column

end Comparator

namespace Table

variable {table : Table}

theorem satisfying_eq_ok_iff {comparison : Comparison} {ids : List Int} :
    table.satisfying comparison = .ok ids ↔
      table.attributes.contains comparison.column = true ∧ table.HasCells comparison.column ∧
        ids = table.idsWhere fun record => table.satisfies record comparison := by
  rw [satisfying]
  cases table.attributes.contains comparison.column with
  | false => simp
  | true =>
      cases hvalues : table.values comparison.column with
      | error fault =>
          refine iff_of_false (by simp) fun h => ?_
          rw [h.2.1.values_eq] at hvalues
          cases hvalues
      | ok cells =>
          have hcells := hasCells_of_values hvalues
          rw [hcells.values_eq] at hvalues
          cases hvalues
          simp only [Bool.not_true, Bool.false_eq_true, if_false, ValueKind.infer_eq,
            Except.ok.injEq, true_and, hcells]
          exact eq_comm

/-- A literal is found in every value that contains it as it is spelled, in columns of every kind,
unless it has a sigma whose form there is not its own.  Just the literals without an open sigma
are found in all such values.  In a table the comparison is decided if and only if it has the
column and no record lacks its cell, and every record is selected whose cell contains the literal
in that way. -/
theorem like_finds_contained (literal : Text) :
    (∀ column before after, ¬ literal.ShiftsBetween before after →
      Comparator.holds .like column (before ++ literal ++ after) literal = true) ∧
    ((∀ column stored, literal <:+: stored →
      Comparator.holds .like column stored literal = true) ↔ ¬ literal.HasOpenSigma) ∧
    ∀ (table : Table) (name : Text),
      ((∃ ids, table.select (.leaf ⟨name, .like, literal⟩) = .ok ids) ↔
        table.attributes.contains name = true ∧ table.HasCells name) ∧
      ∀ ids, table.select (.leaf ⟨name, .like, literal⟩) = .ok ids →
        ∀ id record before after, table.records.get? id = some record →
          record.get? name.lower = some (before ++ literal ++ after) →
            ¬ literal.ShiftsBetween before after → id ∈ ids := by
  refine ⟨fun column _ _ h => Comparator.holds_like_of_not_shiftsBetween h column,
    Comparator.holds_like_of_infix_iff, fun table name => ⟨?_, ?_⟩⟩
  · simp only [select, Formula.select, satisfying_eq_ok_iff]
    constructor
    · rintro ⟨_, hname, hcells, _⟩
      exact ⟨hname, hcells⟩
    · rintro ⟨hname, hcells⟩
      exact ⟨_, hname, hcells, rfl⟩
  · intro ids hselect id record before after hrecord hcell hkept
    obtain ⟨_, _, rfl⟩ := satisfying_eq_ok_iff.1 hselect
    refine mem_idsWhere.2 ⟨record, hrecord, ?_⟩
    rw [satisfies, hcell]
    exact Comparator.holds_like_of_not_shiftsBetween hkept _

def streets : Table :=
  ((insert ["ΟΔΟΣ ΣΟΦΟΥΛΗ".toList]).runOn
    (ofSchema (.fresh "streets".toList ⟨[idName, "Name".toList], by decide +kernel⟩))).2

def street : Text := "ΟΔΟΣ".toList

theorem like_finds_contained_streets :
    street.HasOpenSigma ∧
      ∃ ids, streets.select (.leaf ⟨"name".toList, .like, street⟩) = .ok ids ∧ 1 ∈ ids := by
  obtain ⟨hopen, hkept, hname, hcells, hcell⟩ : street.HasOpenSigma ∧
      ¬ street.ShiftsBetween [] " ΣΟΦΟΥΛΗ".toList ∧
      streets.attributes.contains "name".toList = true ∧
      (streets.records.entries.all fun entry =>
        (entry.2.get? (Text.lower "name".toList)).isSome) = true ∧
      (streets.records.get? 1).bind (·.get? (Text.lower "name".toList)) =
        some ([] ++ street ++ " ΣΟΦΟΥΛΗ".toList) := by decide +kernel
  obtain ⟨record, hrecord, hcell⟩ := Option.bind_eq_some_iff.1 hcell
  obtain ⟨ids, hids⟩ := ((like_finds_contained street).2.2 streets "name".toList).1.2
    ⟨hname, List.all_eq_true.1 hcells⟩
  exact ⟨hopen, ids, hids, ((like_finds_contained _).2.2 streets _).2 ids hids 1 record _ _
    hrecord hcell hkept⟩

/-- A sigma at the end of a word is contained in it, and is not found. -/
theorem finalSigma_missed :
    ['Σ'] <:+: ['Α', 'Σ'] ∧ Comparator.holds .like .text ['Α', 'Σ'] ['Σ'] = false :=
  ⟨⟨['Α'], [], rfl⟩, by decide +kernel⟩

end Table

end Relbase
