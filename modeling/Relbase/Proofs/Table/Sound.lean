import Relbase.Proofs.Number.Decimal
import Relbase.Proofs.Table.Effects
import Relbase.Proofs.Text.Ascii
import Relbase.Table.RowFile
import Relbase.Table.Selection

/-!
# Sound tables

The id is the first attribute and the primary key, and every record has one cell for each
attribute, of which the id's cell reads as the number of the record.  All actions on a
table keep it sound, also where they fail halfway.
-/

namespace Relbase

open Relbase.Action

/-- The schema of a table that is registered under a key. -/
structure Schema.IsSound (key : Text) (schema : Schema) : Prop where
  displayName : ∃ name, schema.displayName = .text name ∧ IsIdentifier name ∧ name.lower = key
  primaryKey : schema.primaryKey = .text idName
  names : ∃ rest, schema.attributes.names = idName :: rest
  identifiers : ∀ name ∈ schema.attributes.names, IsIdentifier name

namespace Table

/-- A record with a cell for each column and the number that its id reads as. -/
structure HasRecord (columns : List Text) (id : Int) (record : Record) : Prop where
  isSome_iff : ∀ key, (record.get? key).isSome = true ↔ key ∈ columns
  readsId : ∃ cell, record.get? idName = some cell ∧ Text.readInteger cell = .ok id

def HasRecords (table : Table) : Prop :=
  ∀ id record, table.records.get? id = some record → HasRecord table.columns id record

structure IsSound (key : Text) (table : Table) : Prop where
  schema : table.schema.IsSound key
  records : ∀ id record, table.records.get? id = some record → HasRecord table.columns id record

end Table

/-! ## Schemas -/

theorem lower_idName : idName.lower = idName := by
  decide +kernel

theorem isIdentifier_idName : IsIdentifier idName := by
  decide +kernel

theorem Schema.ne_idName {schema : Schema} (h : schema.primaryKey = .text idName) {name : Text}
    (hkey : schema.isKey name = false) : name.lower ≠ idName := by
  simpa [isKey, h] using hkey

namespace Schema.IsSound

variable {key : Text} {schema : Schema}

theorem keys (h : schema.IsSound key) : ∃ rest, schema.attributes.keys = idName :: rest := by
  obtain ⟨rest, hnames⟩ := h.names
  exact ⟨rest.map Text.lower, by rw [AttributeSet.keys, hnames, List.map_cons, lower_idName]⟩

theorem idName_mem (h : schema.IsSound key) : idName ∈ schema.attributes.keys := by
  obtain ⟨rest, hkeys⟩ := h.keys
  exact hkeys ▸ List.mem_cons_self

theorem isKey_iff (h : schema.IsSound key) (name : Text) :
    schema.isKey name = true ↔ name.lower = idName := by
  simp [isKey, h.primaryKey]

theorem withNextId (h : schema.IsSound key) (nextId : Int) :
    { schema with nextId }.IsSound key :=
  ⟨h.displayName, h.primaryKey, h.names, h.identifiers⟩

theorem fresh {displayName : Text} {attributes : AttributeSet} (hname : IsIdentifier displayName)
    (hnames : ∃ rest, attributes.names = idName :: rest)
    (hidentifiers : ∀ name ∈ attributes.names, IsIdentifier name) :
    (Schema.fresh displayName attributes).IsSound displayName.lower :=
  ⟨⟨displayName, rfl, hname, rfl⟩, rfl, hnames, hidentifiers⟩

end Schema.IsSound

theorem AttributeSet.names_of_add {set larger : AttributeSet} {name : Text}
    (h : set.add name = .ok larger) : larger.names = set.names ++ [name] ∧ name.lower ∉ set.keys := by
  unfold add at h
  split at h
  · cases h
  · rename_i hmem
    cases h
    exact ⟨rfl, hmem⟩

theorem AttributeSet.keys_of_add {set larger : AttributeSet} {name : Text}
    (h : set.add name = .ok larger) : larger.keys = set.keys ++ [name.lower] := by
  rw [keys, (names_of_add h).1, List.map_append]
  rfl

theorem AttributeSet.add_of_mem {set : AttributeSet} {name : Text} (h : name.lower ∈ set.keys) :
    set.add name = .error (.duplicateAttribute name) :=
  dif_pos h

theorem AttributeSet.exists_add {set : AttributeSet} {name : Text} (h : name.lower ∉ set.keys) :
    ∃ larger, set.add name = .ok larger ∧ larger.names = set.names ++ [name] := by
  rw [add, dif_neg h]
  exact ⟨_, rfl, rfl⟩

theorem AttributeSet.keys_erase (set : AttributeSet) (name : Text) :
    (set.erase name).keys = set.keys.filter fun key => key ≠ name.lower := by
  rw [keys, keys, List.filter_map]
  rfl

/-! ## Records -/

namespace RowFile

variable {columns : List Text}

theorem keys_padded (columns cells : List Text) :
    Assoc.keys (columns.zip (cells ++ List.replicate (columns.length - cells.length) [])) =
      columns :=
  Assoc.keys_zip (by simp; omega)

theorem get?_recordOf (hdistinct : columns.Nodup) (cells : List Text) (column : Text) :
    (recordOf columns cells).get? column =
      Assoc.get? column
        (columns.zip (cells ++ List.replicate (columns.length - cells.length) [])) :=
  SortedMap.get?_ofList (by rwa [keys_padded]) column

theorem isSome_get?_recordOf (hdistinct : columns.Nodup) (cells : List Text) (column : Text) :
    ((recordOf columns cells).get? column).isSome = true ↔ column ∈ columns := by
  rw [get?_recordOf hdistinct, Assoc.isSome_get?_iff, keys_padded]

end RowFile

namespace Table

variable {key : Text} {table : Table}

theorem HasRecord.insert {columns : List Text} {id : Int} {record : Record}
    (h : HasRecord columns id record) {name : Text} (hname : name ∈ columns) (hid : name ≠ idName)
    (value : Text) : HasRecord columns id (record.insert name value) where
  isSome_iff other := by
    rw [SortedMap.isSome_get?_insert, h.isSome_iff]
    exact or_iff_right_of_imp fun hother => hother ▸ hname
  readsId := by
    rw [SortedMap.get?_insert, if_neg hid]
    exact h.readsId

theorem HasRecord.insert_new {columns : List Text} {id : Int} {record : Record}
    (h : HasRecord columns id record) {name : Text} (hid : name ≠ idName) (value : Text) :
    HasRecord (columns ++ [name]) id (record.insert name value) where
  isSome_iff other := by
    rw [SortedMap.isSome_get?_insert, h.isSome_iff, List.mem_append, List.mem_singleton]
    exact or_comm
  readsId := by
    rw [SortedMap.get?_insert, if_neg hid]
    exact h.readsId

theorem HasRecord.erase {columns : List Text} {id : Int} {record : Record}
    (h : HasRecord columns id record) {name : Text} (hid : name ≠ idName) :
    HasRecord (columns.filter fun column => column ≠ name) id (record.erase name) where
  isSome_iff other := by
    rw [SortedMap.isSome_get?_erase, h.isSome_iff, List.mem_filter, decide_eq_true_iff]
    exact and_comm
  readsId := by
    rw [SortedMap.get?_erase, if_neg hid]
    exact h.readsId

theorem hasRecord_ofList {columns cells : List Text} {id : Int} (hdistinct : columns.Nodup)
    (hlength : columns.length ≤ cells.length)
    (hid : ∃ cell, Assoc.get? idName (columns.zip cells) = some cell ∧
      Text.readInteger cell = .ok id) :
    HasRecord columns id (SortedMap.ofList (columns.zip cells)) := by
  have hkeys : Assoc.keys (columns.zip cells) = columns := Assoc.keys_zip hlength
  have hnodup : (Assoc.keys (columns.zip cells)).Nodup := by rwa [hkeys]
  refine ⟨fun key => ?_, ?_⟩
  · rw [SortedMap.get?_ofList hnodup, Assoc.isSome_get?_iff, hkeys]
  · rwa [SortedMap.get?_ofList hnodup]

theorem nodup_columns (table : Table) : table.columns.Nodup :=
  table.schema.attributes.distinct

theorem HasRecords.withRecord (h : table.HasRecords) {id : Int} {record : Record}
    (hrecord : HasRecord table.columns id record) :
    { table with records := table.records.insert id record }.HasRecords := by
  intro other found hfound
  rw [SortedMap.get?_insert] at hfound
  split at hfound
  · rename_i heq
    cases hfound
    exact heq ▸ hrecord
  · exact h other found hfound

theorem IsSound.withRecord (h : table.IsSound key) {id : Int} {record : Record}
    (hrecord : HasRecord table.columns id record) :
    { table with records := table.records.insert id record }.IsSound key :=
  ⟨h.schema, HasRecords.withRecord h.records hrecord⟩

/-! ## Actions -/

/-- What all actions on a sound table ensure. -/
def KeepsSound {α : Type} (key : Text) (action : Action Table α) : Prop :=
  ∀ table, IsSound key table →
    action.Ensures table (fun _ later => IsSound key later) fun _ later => IsSound key later

theorem keepsSound_addAttribute {name : Text} (hname : IsIdentifier name) :
    KeepsSound key (addAttribute name) := by
  intro table h
  refine (ensures_addAttribute table name).mono (fun _ later hadded => ?_)
    fun _ _ hfailed => hfailed.2 ▸ h
  obtain ⟨attributes, hadd, rfl⟩ := hadded
  obtain ⟨hnames, hnew⟩ := AttributeSet.names_of_add hadd
  have hid : name.lower ≠ idName := fun heq => hnew (heq ▸ h.schema.idName_mem)
  have hcolumns : attributes.keys = table.columns ++ [name.lower] := AttributeSet.keys_of_add hadd
  refine ⟨⟨h.schema.displayName, h.schema.primaryKey, ?_, ?_⟩, fun id record hrecord => ?_⟩
  · obtain ⟨rest, hrest⟩ := h.schema.names
    exact ⟨rest ++ [name], hnames.trans (congrArg (· ++ [name]) hrest)⟩
  · change ∀ other ∈ attributes.names, _
    rw [hnames]
    intro other hother
    rcases List.mem_append.1 hother with hother | hother
    · exact h.schema.identifiers other hother
    · exact List.mem_singleton.1 hother ▸ hname
  · obtain ⟨old, hold, rfl⟩ := exists_of_restructured hrecord
    change HasRecord attributes.keys id _
    rw [hcolumns]
    exact (h.records id old hold).insert_new hid []

theorem keepsSound_dropAttribute (name : Text) : KeepsSound key (dropAttribute name) := by
  intro table h
  refine (ensures_dropAttribute table name).mono (fun _ later hdropped => ?_)
    fun _ _ hfailed => hfailed.2 ▸ h
  obtain ⟨hkey, rfl⟩ := hdropped
  have hid := Schema.ne_idName h.schema.primaryKey hkey
  refine ⟨⟨h.schema.displayName, h.schema.primaryKey, ?_, ?_⟩, fun id record hrecord => ?_⟩
  · obtain ⟨rest, hrest⟩ := h.schema.names
    exact ⟨_, (congrArg (List.filter _) hrest).trans
      (List.filter_cons_of_pos (by simpa [lower_idName] using Ne.symm hid))⟩
  · exact fun other hother => h.schema.identifiers other (List.mem_of_mem_filter hother)
  · obtain ⟨old, hold, rfl⟩ := exists_of_restructured hrecord
    change HasRecord (table.attributes.erase name).keys id _
    rw [AttributeSet.keys_erase]
    exact (h.records id old hold).erase hid

theorem IsSound.hasRecord_nextRecord (h : table.IsSound key) {values : List Text}
    (hlength : values.length = (table.columns.drop 1).length)
    (hsize : Text.isOversized table.schema.nextId = false) :
    HasRecord table.columns table.schema.nextId (table.nextRecord values) := by
  obtain ⟨rest, hkeys⟩ := h.schema.keys
  change table.columns = idName :: rest at hkeys
  have hrecord := @hasRecord_ofList table.columns (Text.ofInt table.schema.nextId :: values)
    table.schema.nextId table.nodup_columns (by rw [hkeys] at hlength ⊢; simp [hlength])
    ⟨Text.ofInt table.schema.nextId, by simp [hkeys, Assoc.get?], Text.readInteger_ofInt hsize⟩
  rw [hkeys, List.zip_cons_cons] at hrecord
  rw [nextRecord, hkeys]
  exact hrecord

theorem keepsSound_insert (values : List Text) : KeepsSound key (insert values) := by
  intro table h
  have hadvanced : table.advanced.IsSound key := ⟨h.schema.withNextId _, h.records⟩
  refine (ensures_insert table values).mono (fun id later hinserted => ?_)
    fun _ later hfailed => ?_
  · obtain ⟨rfl, hsize, hlength, rfl⟩ := hinserted
    exact hadvanced.withRecord (h.hasRecord_nextRecord hlength hsize)
  · rcases hfailed with ⟨-, rfl⟩ | ⟨-, -, rfl⟩
    · exact h
    · exact hadvanced

theorem IsSound.assigns {later : Table} (h : table.IsSound key) (hassigns : table.Assigns later) :
    later.IsSound key := by
  obtain ⟨id, record, name, value, hrecord, hkey, hname, rfl⟩ := hassigns
  have hid := Schema.ne_idName h.schema.primaryKey hkey
  exact h.withRecord ((h.records id record hrecord).insert hname hid value)

theorem keepsSound_updateRecords (assignments : List (Text × Text)) (ids : List Int) :
    KeepsSound key (updateRecords assignments ids) := fun _ h =>
  (ensures_updateRecords (fun _ _ hbefore => hbefore.assigns) h assignments ids).mono
    (fun _ _ hlater => hlater) fun _ _ hfailed => hfailed.2

theorem keepsSound_deleteRecords (ids : List Int) : KeepsSound key (deleteRecords ids) := by
  intro table h
  refine (ensures_deleteRecords table ids).mono (fun _ later hdeleted => ?_)
    fun _ _ hfailed => hfailed.elim
  obtain ⟨hschema, hrecords⟩ := hdeleted
  have hcolumns : later.columns = table.columns := congrArg (·.attributes.keys) hschema
  refine ⟨hschema ▸ h.schema, fun id record hrecord => ?_⟩
  rw [hcolumns]
  exact h.records id record (hrecords id record hrecord)

theorem hasRecord_recordOf {columns cells : List Text} {id : Int} {cell : Text}
    (hdistinct : columns.Nodup) (hcell : (RowFile.recordOf columns cells).get? idName = some cell)
    (hid : Text.readInteger cell = .ok id) : HasRecord columns id (RowFile.recordOf columns cells) :=
  ⟨RowFile.isSome_get?_recordOf hdistinct cells, cell, hcell, hid⟩

theorem hasRecords_loadRows (path : Text) (rows : List (List Text)) (h : table.HasRecords) :
    (loadRows path rows).Ensures table
      (fun _ later => later.schema = table.schema ∧ later.HasRecords)
      fun _ later => later.schema = table.schema ∧ later.HasRecords := by
  induction rows generalizing table with
  | nil => exact ⟨rfl, h⟩
  | cons cells rest ih =>
      simp only [loadRows, store, ensures_bind, ensures_get]
      split
      · exact ⟨rfl, h⟩
      · rename_i cell hcell
        split
        · exact ⟨rfl, h⟩
        · rename_i id hid
          rw [ensures_bind, ensures_modify]
          exact ih (h.withRecord (hasRecord_recordOf table.nodup_columns hcell hid))

theorem hasRecords_load (path : Text) (file : RowFile) (table : Table) :
    (load path file).Ensures table
      (fun _ later => later.schema = table.schema ∧ later.HasRecords)
      fun _ later => later.schema = table.schema ∧ later.HasRecords := by
  rw [load, ensures_bind, ensures_modify]
  exact @hasRecords_loadRows { table with records := SortedMap.empty } path file.rows
    fun id record hrecord => by cases hrecord

theorem keepsSound_load (path : Text) (file : RowFile) : KeepsSound key (load path file) := by
  intro table h
  refine (hasRecords_load path file table).mono (fun _ later hlater => ?_) fun _ later hlater => ?_
  all_goals exact ⟨hlater.1 ▸ h.schema, hlater.2⟩

theorem keepsSound_selected {condition : Condition} {change : List Int → Action Table Unit}
    (hchange : ∀ ids, KeepsSound key (change ids)) :
    KeepsSound key (do
      let ids ← Action.ofOutcome ((← get).select condition)
      change ids) := by
  intro table h
  simp only [ensures_bind, ensures_get, ensures_ofOutcome]
  exact ⟨fun ids _ => hchange ids table h, fun _ _ => h⟩

theorem isSound_ofSchema {schema : Schema} (h : schema.IsSound key) :
    (Table.ofSchema schema).IsSound key :=
  ⟨h, fun id record hrecord => by cases hrecord⟩

end Table

end Relbase
