import Relbase.Proofs.Likeness.Tables
import Relbase.Proofs.Session.Deletion
import Relbase.Proofs.Table.Joining

/-!
# Joins in a session

A join loads both tables, which changes neither a table nor a file, and answers with what the
join of the two is.
-/

namespace Relbase.Session

open Relbase.Action

variable {path : Text} {session : Session}

/-- The tables and the files of a session are those of another one. -/
structure Preserves (session later : Session) : Prop where
  store : later.store = session.store
  tables : ∀ spelled, later.tableOf spelled = session.tableOf spelled

theorem Preserves.trans {middle later : Session} (hfirst : session.Preserves middle)
    (hsecond : middle.Preserves later) : session.Preserves later :=
  ⟨hsecond.store.trans hfirst.store, fun spelled =>
    (hsecond.tables spelled).trans (hfirst.tables spelled)⟩

theorem tableOf_of_lower {spelled other : Text} (hlower : spelled.lower = other.lower)
    {table : Table} (htable : session.tableOf spelled = .ok table) :
    session.tableOf other = .ok table := by
  obtain ⟨name, database, hcurrent, hfound⟩ := exists_current_of_tableOf htable
  rw [tableOf, hcurrent]
  exact Workspace.tableOf_of_lower hlower hfound

theorem runOn_loadTable {spelled : Text} {table : Table}
    (htable : session.tableOf spelled = .ok table) :
    ∃ later, (onWorkspace (Workspace.loadTable spelled)).runOn session = (.ok table, later) ∧
      session.Preserves later := by
  obtain ⟨name, database, hcurrent, hfound⟩ := exists_current_of_tableOf htable
  refine ⟨_, by rw [runOn_onWorkspace hcurrent, Workspace.runOn_loadTable, hfound], ?_, ?_⟩
  · rfl
  · intro other
    rw [tableOf, tableOf, hcurrent]
    exact Workspace.tableOf_registered_loaded hfound other

theorem runOn_join {leftTable rightTable : Text} {left right : Table}
    (hleft : session.tableOf leftTable = .ok left) (hright : session.tableOf rightTable = .ok right)
    (leftOn rightOn : Text) :
    ((execute (.join leftTable rightTable leftOn rightOn)).runOn session).1 =
        (left.join right leftOn rightOn).map some ∧
      session.Preserves ((execute (.join leftTable rightTable leftOn rightOn)).runOn session).2 := by
  obtain ⟨middle, hfirst, hmiddle⟩ := runOn_loadTable hleft
  rw [← hmiddle.tables] at hright
  obtain ⟨later, hsecond, hlater⟩ := runOn_loadTable hright
  rw [execute, runOn_bind_of_ok hfirst, runOn_bind_of_ok hsecond, runOn_bind, runOn_ofOutcome]
  cases left.join right leftOn rightOn with
  | ok result => exact ⟨rfl, hmiddle.trans hlater⟩
  | error failure => exact ⟨rfl, hmiddle.trans hlater⟩

/-- A join of two tables answers with a numbered row for each pair of records that agree, in
the order of their ids, and changes nothing.  Only the join of a table with itself can fail,
which it does exactly if it carries an attribute over twice. -/
theorem join_reference (path : Text) (events : List Event) {leftTable rightTable : Text}
    {left right : Table} (hleft : (after path events).tableOf leftTable = .ok left)
    (hright : (after path events).tableOf rightTable = .ok right) {leftOn rightOn : Text}
    (hleftOn : left.attributes.contains leftOn = true)
    (hrightOn : right.attributes.contains rightOn = true) :
    (after path events).Preserves
        ((execute (.join leftTable rightTable leftOn rightOn)).runOn (after path events)).2 ∧
      (Table.agreeing left right leftOn rightOn).Pairwise (fun first second =>
        first.1.1 < second.1.1 ∨ first.1.1 = second.1.1 ∧ first.2.1 < second.2.1) ∧
      (leftTable.lower ≠ rightTable.lower →
        ((execute (.join leftTable rightTable leftOn rightOn)).runOn (after path events)).1 =
          .ok (some (Table.joined left right leftOn rightOn))) ∧
      (leftTable.lower = rightTable.lower →
        ((∃ name, ((execute (.join leftTable rightTable leftOn rightOn)).runOn
            (after path events)).1 = .error (.reported (.duplicateAttribute name))) ↔
          left.CarriesTwice leftOn rightOn) ∧
        (¬ left.CarriesTwice leftOn rightOn →
          ((execute (.join leftTable rightTable leftOn rightOn)).runOn (after path events)).1 =
            .ok (some (Table.joined left right leftOn rightOn)))) := by
  have hsound := isSound_after path events
  have hleftSound := hsound.isSound_tableOf hleft
  obtain ⟨houtcome, hpreserves⟩ := runOn_join hleft hright leftOn rightOn
  rw [houtcome]
  refine ⟨hpreserves, Table.pairwise_agreeing left right leftOn rightOn, fun hkeys => ?_,
    fun hkeys => ?_⟩
  · rw [hleftSound.join_of_ne (hsound.isSound_tableOf hright) hleftOn hrightOn hkeys]
    rfl
  · cases (tableOf_of_lower hkeys hleft).symm.trans hright
    obtain ⟨htwice, honce⟩ := hleftSound.join_self hleftOn hrightOn
    refine ⟨⟨fun ⟨name, hfailed⟩ => ?_, fun hcarries => ?_⟩, fun hcarries => ?_⟩
    · by_contra hcarries
      rw [honce hcarries] at hfailed
      cases hfailed
    · obtain ⟨name, hfailed⟩ := htwice hcarries
      exact ⟨name, by rw [hfailed]; rfl⟩
    · rw [honce hcarries]
      rfl

def peopleAndPets : List Event :=
  [.query "CREATE DATABASE d;".toList, .query "USE d;".toList,
    .query "CREATE TABLE People (Name);".toList,
    .query "INSERT INTO people VALUES ('Alice');".toList,
    .query "INSERT INTO people VALUES ('Bob');".toList,
    .query "CREATE TABLE pets (Owner, Name);".toList,
    .query "INSERT INTO pets VALUES (2, 'Rex');".toList,
    .query "INSERT INTO pets VALUES (1, 'Tom');".toList,
    .query "INSERT INTO pets VALUES (2, 'Ann');".toList]

theorem join_reference_pets :
    ((execute (.join "people".toList "pets".toList "ID".toList "owner".toList)).runOn
        (after "r".toList peopleAndPets)).1 =
      .ok (some ⟨["id".toList, "People.Name".toList, "pets.Name".toList],
        [["1".toList, "Alice".toList, "Tom".toList], ["2".toList, "Bob".toList, "Rex".toList],
          ["3".toList, "Bob".toList, "Ann".toList]]⟩) ∧
    ∃ name, ((execute (.join "people".toList "people".toList "id".toList "ID".toList)).runOn
      (after "r".toList peopleAndPets)).1 = .error (.reported (.duplicateAttribute name)) := by
  have hrun : ((after "r".toList peopleAndPets).tableOf "people".toList).toOption.any (fun left =>
      ((after "r".toList peopleAndPets).tableOf "pets".toList).toOption.any fun right =>
        left.attributes == ⟨["id".toList, "Name".toList], by decide +kernel⟩ &&
          right.attributes.contains "owner".toList &&
            Table.joined left right "ID".toList "owner".toList ==
              ⟨["id".toList, "People.Name".toList, "pets.Name".toList],
                [["1".toList, "Alice".toList, "Tom".toList], ["2".toList, "Bob".toList, "Rex".toList],
                  ["3".toList, "Bob".toList, "Ann".toList]]⟩) = true := by decide +kernel
  obtain ⟨left, hleft, hrun⟩ := exists_ok_of_any hrun
  obtain ⟨right, hright, hrun⟩ := exists_ok_of_any hrun
  simp only [Bool.and_eq_true, beq_iff_eq] at hrun
  obtain ⟨⟨hattributes, howner⟩, hjoined⟩ := hrun
  have hid (name : Text) (hname : name.lower = idName) : left.attributes.contains name = true := by
    rw [hattributes, AttributeSet.contains_iff, hname]
    decide +kernel
  obtain ⟨-, -, hdifferent, -⟩ := join_reference "r".toList peopleAndPets hleft hright
    (hid "ID".toList (by decide +kernel)) howner
  obtain ⟨-, -, -, hsame⟩ := join_reference "r".toList peopleAndPets hleft hleft
    (hid "id".toList (by decide +kernel)) (hid "ID".toList (by decide +kernel))
  constructor
  · rw [← hjoined]
    exact hdifferent (by decide +kernel)
  · apply (hsame rfl).1.2
    rw [Table.CarriesTwice, hattributes]
    exact ⟨"Name".toList, by decide +kernel⟩

end Relbase.Session
