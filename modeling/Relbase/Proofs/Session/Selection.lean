import Relbase.Proofs.Session.Altering
import Relbase.Proofs.Session.Deletion
import Relbase.Proofs.Table.Projecting

/-!
# Selecting and deleting the same rows

A selection shows the requested columns of the rows that its condition selects, and a deletion
by the same condition leaves the others.
-/

namespace Relbase.Session

variable {path spelled : Text} {session : Session} {table : Table} {columns : Columns}
  {condition : Condition}

theorem IsSound.tableOf_delete (h : session.IsSound path)
    (hprintable : Spelling.Printable (.delete spelled condition))
    (htable : session.tableOf spelled = .ok table)
    (hknown : table.firstUnknown? condition = none) :
    ((execute (.delete spelled condition)).runOn session).2.tableOf spelled =
      .ok (table.remainder condition) := by
  have hends : Ends path spelled session table ((Table.deleteWhere condition).runOn table)
      ((execute (.delete spelled condition)).runOn session).1
      ((execute (.delete spelled condition)).runOn session).2 := h.ends hprintable rfl htable
  rw [(h.isSound_tableOf htable).isTotal.runOn_deleteWhere, hknown] at hends
  exact hends.table

/-- A selection by a condition shows the requested columns of those rows of the whole table
that have the ids of the records selected.  A deletion by the condition takes out these records
and leaves the other rows, the schema and the counter as they are. -/
theorem selection_and_deletion (path : Text) (events : List Event)
    (htable : (after path events).tableOf spelled = .ok table)
    (hcolumns : ∀ name ∈ columns.requested, table.attributes.contains name = true)
    (hcondition : ∀ comparison ∈ condition.leaves,
      table.attributes.contains comparison.column = true) :
    ∃ ids whole, table.select condition = .ok ids ∧
      (table.ids.Pairwise (· < ·) ∧ whole.rows.length = table.ids.length ∧
        ∀ id cells, (id, cells) ∈ table.ids.zip whole.rows →
          ∃ record, table.records.get? id = some record ∧
            cells = Table.row (whole.names.map Text.lower) record) ∧
      ((execute (.select .all spelled none)).runOn (after path events)).1 = .ok (some whole) ∧
      ((execute (.select .all spelled (some condition))).runOn (after path events)).1 =
        .ok (some (whole.restrict table.ids fun id => id ∈ ids)) ∧
      ((execute (.select columns spelled (some condition))).runOn (after path events)).1 =
        .ok (some ((whole.restrict table.ids fun id => id ∈ ids).project
          (columns.spelled table.attributes))) ∧
      ∀ text, Command.ofText text = .ok (.delete spelled condition) →
        ∃ rest, (after path (events ++ [.query text])).tableOf spelled = .ok rest ∧
          rest.schema = table.schema ∧
          (∀ id, rest.records.get? id = if id ∈ ids then none else table.records.get? id) ∧
          ((execute (.select .all spelled none)).runOn
            (after path (events ++ [.query text]))).1 =
              .ok (some (whole.restrict table.ids fun id => id ∉ ids)) := by
  have hsound := isSound_after path events
  have hknown := Table.firstUnknown?_eq_none.2 hcondition
  have htotal := (hsound.isSound_tableOf htable).isTotal
  have hselect : table.select condition = .ok (table.selectedIds condition) := by
    rw [htotal.select_eq, hknown, Table.selectedIds]
  refine ⟨table.selectedIds condition, table.whole, hselect,
    ⟨table.pairwise_keys, table.length_rows_whole, fun _ _ => Table.exists_of_mem_zip⟩,
    outcome_select_of_answer htable rfl, ?_, ?_, fun text hcommand => ?_⟩
  · rw [← Table.whereTrue_eq_restrict]
    exact outcome_select_of_answer htable (htotal.answer_all_eq hknown)
  · rw [← Table.whereTrue_eq_restrict]
    exact outcome_select_of_answer htable (htotal.answer_eq hknown hcolumns)
  · have hrest : (after path (events ++ [.query text])).tableOf spelled =
        .ok (table.remainder condition) := by
      rw [after_append, react, executeText, hcommand]
      exact hsound.tableOf_delete (Spelling.printable_of_ofText hcommand) htable hknown
    refine ⟨table.remainder condition, hrest, rfl, table.get?_remainder condition, ?_⟩
    rw [← Table.whole_remainder]
    exact outcome_select_of_answer hrest rfl

def threePeople : List Event :=
  [.query "CREATE DATABASE d;".toList, .query "USE d;".toList,
    .query "CREATE TABLE people (Name, Age);".toList,
    .query "INSERT INTO people VALUES ('Alice', 30);".toList,
    .query "INSERT INTO people VALUES ('Bob', 21);".toList,
    .query "INSERT INTO people VALUES ('Dan', 44);".toList]

def peopleAttributes : AttributeSet :=
  ⟨["id".toList, "Name".toList, "Age".toList], by decide +kernel⟩

theorem selection_and_deletion_people :
    ((execute (.select (.named ["AGE".toList, "name".toList, "Age".toList]) "people".toList
        (some (.leaf ⟨"age".toList, .greater, "25".toList⟩)))).runOn
          (after "r".toList threePeople)).1 =
      .ok (some ⟨["Age".toList, "Name".toList],
        [["30".toList, "Alice".toList], ["44".toList, "Dan".toList]]⟩) ∧
    ((execute (.select .all "people".toList none)).runOn (after "r".toList (threePeople ++
        [.query "DELETE FROM people WHERE age > 25;".toList]))).1 =
      .ok (some ⟨["id".toList, "Name".toList, "Age".toList],
        [["2".toList, "Bob".toList, "21".toList]]⟩) := by
  obtain ⟨hfound, hall⟩ : ((after "r".toList threePeople).tableOf "people".toList).toOption.any
        (fun table => table.attributes == peopleAttributes && table.ids == [1, 2, 3] &&
          (table.select (.leaf ⟨"age".toList, .greater, "25".toList⟩)).toOption == some [1, 3]) =
            true ∧
      ((execute (.select .all "people".toList none)).runOn (after "r".toList threePeople)).1.toOption =
        some (some ⟨peopleAttributes.names,
          [["1".toList, "Alice".toList, "30".toList], ["2".toList, "Bob".toList, "21".toList],
            ["3".toList, "Dan".toList, "44".toList]]⟩) := by decide +kernel
  obtain ⟨table, htable, hparts⟩ := exists_ok_of_any hfound
  simp only [Bool.and_eq_true, beq_iff_eq] at hparts
  obtain ⟨⟨hattributes, hids⟩, hselect⟩ := hparts
  obtain ⟨ids, whole, hfoundIds, -, hwhole, -, hselected, hdeleted⟩ :=
    selection_and_deletion "r".toList threePeople htable
      (show ∀ name ∈ (Columns.named ["AGE".toList, "name".toList, "Age".toList]).requested,
        table.attributes.contains name = true by rw [hattributes]; decide +kernel)
      (show ∀ comparison ∈ (Formula.leaf
          (⟨"age".toList, .greater, "25".toList⟩ : Comparison)).leaves,
        table.attributes.contains comparison.column = true by rw [hattributes]; decide +kernel)
  cases (eq_ok_of_toOption hselect).symm.trans hfoundIds
  cases (eq_ok_of_toOption hall).symm.trans hwhole
  obtain ⟨rest, -, -, -, hrest⟩ := hdeleted "DELETE FROM people WHERE age > 25;".toList
    (by decide +kernel)
  rw [hids, hattributes] at hselected
  rw [hids] at hrest
  have hspelled : (Columns.named ["AGE".toList, "name".toList, "Age".toList]).spelled
      peopleAttributes = ["Age".toList, "Name".toList] := by decide +kernel
  rw [hspelled] at hselected
  exact ⟨hselected, hrest⟩

end Relbase.Session
