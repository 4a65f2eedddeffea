import Relbase.Proofs.Failures
import Relbase.Proofs.Map.Lookup

/-!
# What an action does to a table

For each action, the table that it leaves where it succeeds, and where it fails.  Assignments
are made one after another, so a failing update leaves what some of them have made of the
table; all that is known of it is what every assignment keeps.
-/

namespace Relbase

open Relbase.Action

namespace Table

variable {table : Table}

/-! ## Attributes -/

def restructured (table : Table) (attributes : AttributeSet) (change : Record → Record) : Table where
  schema := { table.schema with attributes }
  records := table.records.mapValues fun _ (record : Record) => change record

theorem exists_of_restructured {attributes : AttributeSet} {change : Record → Record} {id : Int}
    {record : Record}
    (h : (table.restructured attributes change).records.get? id = some record) :
    ∃ old, table.records.get? id = some old ∧ change old = record := by
  rw [restructured, SortedMap.get?_mapValues] at h
  exact Option.map_eq_some_iff.1 h

theorem ensures_addAttribute (table : Table) (name : Text) :
    (addAttribute name).Ensures table
      (fun _ later => ∃ attributes, table.attributes.add name = .ok attributes ∧
        later = table.restructured attributes fun record => record.insert name.lower [])
      fun failure later => failure.IsReported ∧ later = table := by
  simp only [addAttribute, ensures_bind, ensures_get]
  split
  · exact ⟨trivial, rfl⟩
  · rename_i attributes hadd
    exact ⟨attributes, hadd, rfl⟩

theorem ensures_dropAttribute (table : Table) (name : Text) :
    (dropAttribute name).Ensures table
      (fun _ later => table.schema.isKey name = false ∧
        later = table.restructured (table.attributes.erase name) fun record =>
          record.erase name.lower)
      fun failure later => failure.IsReported ∧ later = table := by
  simp only [dropAttribute, ensures_bind, ensures_get]
  split
  · exact ⟨trivial, rfl⟩
  split
  · exact ⟨trivial, rfl⟩
  · rename_i hkey
    exact ⟨Bool.eq_false_iff.2 hkey, rfl⟩

/-! ## New records -/

def advanced (table : Table) : Table :=
  { table with schema := { table.schema with nextId := table.schema.nextId + 1 } }

def extended (table : Table) (record : Record) : Table where
  schema := { table.schema with nextId := table.schema.nextId + 1 }
  records := table.records.insert table.schema.nextId record

def nextRecord (table : Table) (values : List Text) : Record :=
  SortedMap.ofList ((idName, Text.ofInt table.schema.nextId) :: (table.columns.drop 1).zip values)

/-- An insertion is refused unless there is a value for each attribute, and an id that has too
many digits is lost. -/
theorem ensures_insert (table : Table) (values : List Text) :
    (insert values).Ensures table
      (fun id later => id = table.schema.nextId ∧ Text.isOversized id = false ∧
        values.length = (table.columns.drop 1).length ∧
          later = table.extended (table.nextRecord values))
      fun failure later => failure.IsEarly ∧ later = table ∨
        failure = .unforeseen .oversizedInteger ∧ Text.isOversized table.schema.nextId = true ∧
          later = table.advanced := by
  simp only [insert, allocateId, store, ensures_bind, ensures_get]
  split
  · exact .inl ⟨⟨trivial, rfl⟩, rfl⟩
  · rename_i hlength
    simp only [ensures_bind, ensures_get, ensures_set, ensures_pure]
    generalize hsize : Text.isOversized table.schema.nextId = oversized
    cases oversized with
    | true => exact .inr ⟨rfl, rfl, rfl⟩
    | false => exact ⟨rfl, hsize, Decidable.not_not.1 hlength, rfl⟩

/-! ## Assignments -/

def Assigns (table later : Table) : Prop :=
  ∃ id record name value, table.records.get? id = some record ∧ table.schema.isKey name = false ∧
    name.lower ∈ table.columns ∧
      later = { table with records := table.records.insert id (record.insert name.lower value) }

variable {P : Table → Prop}

theorem ensures_assign (hkept : ∀ before later, P before → before.Assigns later → P later)
    (h : P table) (id : Int) (assignments : List (Text × Text)) :
    (assign id assignments).Ensures table (fun _ later => P later)
      fun failure later => failure.IsReported ∧ P later := by
  induction assignments generalizing table with
  | nil => exact h
  | cons assignment rest ih =>
      obtain ⟨name, value⟩ := assignment
      simp only [assign, store, ensures_bind, ensures_get]
      split
      · exact ⟨trivial, h⟩
      rename_i hkey
      split
      · exact ⟨trivial, h⟩
      rename_i hname
      split
      · exact ⟨trivial, h⟩
      · rename_i record hrecord
        rw [ensures_bind, ensures_modify]
        refine ih (hkept table _ h ⟨id, record, name, value, hrecord, Bool.eq_false_iff.2 hkey, ?_, rfl⟩)
        simpa [columns] using hname

theorem ensures_updateRecord (hkept : ∀ before later, P before → before.Assigns later → P later)
    (h : P table) (id : Int) (assignments : List (Text × Text)) :
    (updateRecord id assignments).Ensures table (fun _ later => P later)
      fun failure later => failure.IsReported ∧ P later := by
  simp only [updateRecord, ensures_bind, ensures_get]
  split
  · exact ⟨trivial, h⟩
  · exact ensures_assign hkept h id assignments

theorem ensures_updateRecords (hkept : ∀ before later, P before → before.Assigns later → P later)
    (h : P table) (assignments : List (Text × Text)) (ids : List Int) :
    (updateRecords assignments ids).Ensures table (fun _ later => P later)
      fun failure later => failure.IsReported ∧ P later := by
  induction ids generalizing table with
  | nil => exact h
  | cons id rest ih =>
      rw [updateRecords, ensures_bind]
      exact (ensures_updateRecord hkept h id assignments).mono (fun _ _ hlater => ih hlater)
        fun _ _ hfailed => hfailed

/-! ## Deletions -/

theorem exists_runOn_deleteRecords (table : Table) (ids : List Int) :
    ∃ count, (deleteRecords ids).runOn table =
      (.ok count, { table with records := table.records.filter fun id _ => !ids.contains id }) := by
  induction ids generalizing table with
  | nil =>
      refine ⟨0, ?_⟩
      have hall : table.records.filter (fun id _ => !([] : List Int).contains id) = table.records :=
        SortedMap.ext_entries (List.filter_eq_self.2 fun _ _ => rfl)
      rw [hall]
      rfl
  | cons id rest ih =>
      obtain ⟨count, hrest⟩ := ih { table with records := table.records.erase id }
      refine ⟨count + (if table.records.contains id then 1 else 0), ?_⟩
      have hset : (set { table with records := table.records.erase id } : Action Table PUnit).runOn
          table = (.ok ⟨⟩, { table with records := table.records.erase id }) := rfl
      have hfilter : (table.records.erase id).filter (fun other _ => !rest.contains other) =
          table.records.filter fun other _ => !(id :: rest).contains other := by
        refine SortedMap.ext_entries ((List.filter_filter ..).trans ?_)
        refine List.filter_congr fun entry _ => ?_
        simp [Bool.and_comm]
      rw [deleteRecords, runOn_get_bind, runOn_bind_of_ok hset, runOn_bind_of_ok hrest, hfilter]
      rfl

theorem ensures_deleteRecords (table : Table) (ids : List Int) :
    (deleteRecords ids).Ensures table
      (fun _ later => later.schema = table.schema ∧ ∀ id record,
        later.records.get? id = some record → table.records.get? id = some record)
      fun _ _ => False := by
  obtain ⟨count, hrun⟩ := exists_runOn_deleteRecords table ids
  rw [Ensures, hrun]
  refine ⟨rfl, fun id record hrecord => ?_⟩
  rw [SortedMap.get?_filter table.records fun id => !ids.contains id] at hrecord
  split at hrecord
  · exact hrecord
  · cases hrecord

end Table

end Relbase
