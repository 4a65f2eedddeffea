import Relbase.Insertion
import Relbase.Proofs.ErrorClass
import Relbase.Proofs.Session.Changes
import Relbase.Proofs.Session.Consistency
import Relbase.Proofs.Table.Wide

/-!
# Insertions of any values

An insertion of texts ends as the command does, and leaves the files that the command leaves.  An
insertion of a value with a surrogate in it never succeeds, whatever database is in use: the
metadata may be written and the row files before that of the table, but its own is not.
-/

namespace Relbase

open Relbase.Action

/-! ## Records -/

theorem WideTable.runOn_insert_widened (table : Table) (values : List Text) :
    (WideTable.insert (values.map WideText.ofText)).runOn table.widened =
      (((Table.insert values).runOn table).1, ((Table.insert values).runOn table).2.widened) := by
  have hrecord : (SortedMap.ofList ((idName, WideText.ofText (Text.ofInt table.schema.nextId)) ::
      (table.columns.drop 1).zip (values.map WideText.ofText)) : WideRecord) =
        (SortedMap.ofList ((idName, Text.ofInt table.schema.nextId) ::
          (table.columns.drop 1).zip values)).mapValues fun _ => WideText.ofText := by
    rw [← SortedMap.ofList_mapValues, List.map_cons, List.zip_map_right]
    rfl
  have hstored : table.widened.records.insert table.schema.nextId
      (SortedMap.ofList ((idName, WideText.ofText (Text.ofInt table.schema.nextId)) ::
        (table.columns.drop 1).zip (values.map WideText.ofText))) =
      (table.records.insert table.schema.nextId
        (SortedMap.ofList ((idName, Text.ofInt table.schema.nextId) ::
          (table.columns.drop 1).zip values))).mapValues
            fun _ (record : Record) => record.mapValues fun _ => WideText.ofText := by
    rw [hrecord]
    exact SortedMap.insert_mapValues (fun record : Record => record.mapValues fun _ => WideText.ofText)
      table.records table.schema.nextId _
  have hcolumns : table.widened.columns = table.columns := rfl
  have hschema : table.widened.schema = table.schema := rfl
  rw [WideTable.insert, Table.insert, runOn_get_bind, runOn_get_bind]
  simp only [hcolumns, hschema, List.length_map]
  split
  · rfl
  · simp only [Table.allocateId, Table.store, bind_assoc, pure_bind]
    rw [runOn_get_bind]
    cases Text.isOversized table.schema.nextId with
    | true => rfl
    | false => exact congrArg (fun records => (Except.ok table.schema.nextId,
        WideTable.mk { table.schema with nextId := table.schema.nextId + 1 } records)) hstored

namespace WideTable

theorem ensures_save_of_unencodable {table : WideTable} {cells : List WideText} {cell : WideText}
    (hcells : cells ∈ table.rows) (hcell : cell ∈ cells) (hpoint : WideText.encode? cell = none)
    (place : Place) (store : Store) :
    (table.save place).Ensures store (fun _ _ => False) fun _ _ => True := by
  have hincomplete : (RowFile.encodeLines
      (table.schema.attributes.names.map WideText.ofText :: table.rows)).2 = false := by
    rw [Bool.eq_false_iff, Ne, RowFile.encodeLines_complete_iff]
    intro hall
    simpa [hpoint] using hall cells (List.mem_cons_of_mem _ hcells) cell hcell
  rw [save, Files.writeWideLines]
  simp only [hincomplete, ensures_bind]
  exact ensures_of_runOn rfl (fun _ _ => trivial) fun _ _ => trivial

theorem get?_ofList_zip {columns : List Text} {values : List WideText} (hdistinct : columns.Nodup)
    (hlength : values.length = columns.length) (first : Text × WideText) {value : WideText}
    (hvalue : value ∈ values) :
    ∃ column ∈ columns, (SortedMap.ofList (first :: columns.zip values)).get? column = some value := by
  have hkeys : Assoc.keys (columns.zip values) = columns := Assoc.keys_zip (Nat.le_of_eq hlength.symm)
  have hvalues : (columns.zip values).map Prod.snd = values := List.map_snd_zip (Nat.le_of_eq hlength)
  rw [← hvalues] at hvalue
  obtain ⟨⟨column, value⟩, hmem, rfl⟩ := List.mem_map.1 hvalue
  have hfound : Assoc.get? column (columns.zip values) = some value :=
    (Assoc.get?_eq_some_iff (hkeys.symm ▸ hdistinct)).2 hmem
  refine ⟨column, (List.of_mem_zip hmem).1, ?_⟩
  rw [SortedMap.ofList, List.foldl_cons, SortedMap.get?_foldl_insert (hkeys.symm ▸ hdistinct), hfound]
  rfl

theorem ensures_insert_row (table : WideTable) (values : List WideText) :
    (insert values).Ensures table
      (fun _ later => ∃ cells ∈ later.rows, ∀ value ∈ values, value ∈ cells) fun _ _ => True := by
  rw [insert, ensures_bind, ensures_get]
  dsimp only
  split
  · exact .intro
  rename_i hlength
  rw [ensures_bind, ensures_set]
  generalize Text.isOversized table.schema.nextId = oversized
  cases oversized with
  | true => exact .intro
  | false =>
      have hdistinct : (table.columns.drop 1).Nodup :=
        table.schema.attributes.distinct.sublist (List.drop_sublist 1 _)
      generalize hrecord : (SortedMap.ofList ((idName, WideText.ofText (Text.ofInt table.schema.nextId)) ::
        (table.columns.drop 1).zip values) : WideRecord) = record
      refine ⟨row table.columns record, List.mem_map_of_mem (f := fun entry => row table.columns entry.2)
        (SortedMap.get?_eq_some_iff.1 ?_ : (table.schema.nextId, record) ∈
          (table.records.insert table.schema.nextId record).entries), fun value hvalue => ?_⟩
      · rw [SortedMap.get?_insert, if_pos rfl]
      · obtain ⟨column, hcolumn, hfound⟩ :=
          get?_ofList_zip hdistinct (Decidable.not_not.1 hlength) _ hvalue
        rw [hrecord] at hfound
        exact List.mem_map.2 ⟨column, List.mem_of_mem_drop hcolumn, by rw [hfound]; rfl⟩

end WideTable

/-! ## Databases -/

namespace Workspace

/-- Workspaces of one directory in one store. -/
structure SharesFiles (first second : Workspace) : Prop where
  store : first.store = second.store
  directory : first.database.directory = second.database.directory

variable {first second workspace : Workspace} {key : Text}

theorem agree_onStore {α : Type} (h : first.SharesFiles second) (action : Action Store α) :
    Agree SharesFiles (onStore action) (onStore action) first second := by
  constructor <;> rw [onStore, runOn_within, runOn_within, h.store]
  exact ⟨rfl, h.directory⟩

theorem agree_writeTable (h : first.SharesFiles second) (key : Text) (table : Table) :
    Agree SharesFiles (writeTable key table) (writeTable key table) first second := by
  rw [writeTable]
  refine agree_get_bind ?_
  rw [Database.rowFilePlace, Database.rowFilePlace, h.directory]
  exact agree_onStore h _

/-- To write the row files with one table changed is to write them after the change. -/
theorem agree_writeTablesWith (h : first.SharesFiles second) (key : Text) (changed : Table)
    (tables : List (Text × Table)) :
    Agree SharesFiles (writeTablesWith key changed.widened tables)
      (writeTables (tables.map fun entry => (entry.1, if entry.1 = key then changed else entry.2)))
      first second := by
  induction tables generalizing first second with
  | nil => exact ⟨rfl, h⟩
  | cons entry rest ih =>
      rw [List.map_cons, writeTablesWith, writeTables]
      by_cases hkey : entry.1 = key
      · rw [if_pos hkey, if_pos hkey, hkey, writeTable, bind_assoc]
        refine agree_get_bind ?_
        rw [Table.save_widened, Database.rowFilePlace, Database.rowFilePlace, h.directory]
        exact (agree_onStore h _).bind fun _ _ _ hlater => ih hlater
      · rw [if_neg hkey, if_neg hkey]
        exact (agree_writeTable h entry.1 entry.2).bind fun _ _ _ hlater => ih hlater

theorem loadedTables_put {database : Database} {key : Text} {table : Table}
    (hget : database.tables.get? key = some (.ofTable table)) (changed : Table) :
    Database.loadedTables { database with tables := database.tables.put key (.ofTable changed) } =
      database.loadedTables.map fun entry =>
        (entry.1, if entry.1 = key then changed else entry.2) := by
  have hmem : key ∈ Assoc.keys database.tables.entries := by
    rw [← Assoc.isSome_get?_iff, ← OrderedMap.get?, hget]
    rfl
  rw [Database.loadedTables, Database.loadedTables, OrderedMap.put]
  simp only
  rw [Assoc.put_eq_map database.tables.distinct hmem, List.filterMap_map, List.map_filterMap]
  refine List.filterMap_congr fun entry hentry => ?_
  have hfound : database.tables.get? entry.1 = some entry.2 := OrderedMap.get?_eq_some_iff.2 hentry
  by_cases hkey : entry.1 = key
  · rw [hkey, hget] at hfound
    rw [← Option.some.inj hfound]
    simp [hkey, Registration.ofTable, Registration.table?]
  · simp [hkey, Function.comp_def]

theorem metadata_put (database : Database) (key : Text) {first second : Registration}
    (hschema : first.schema = second.schema) :
    Database.metadata { database with tables := database.tables.put key first } =
      Database.metadata { database with tables := database.tables.put key second } := by
  simp only [Database.metadata, OrderedMap.put]
  rw [← Assoc.put_mapValues (fun found : Registration => found.schema.toJson),
    ← Assoc.put_mapValues (fun found : Registration => found.schema.toJson), hschema]

/-- Saving with the changed table aside is saving once the table is registered. -/
theorem agree_save_changed (workspace : Workspace) (key : Text) (changed : Table)
    (records : Records) :
    Agree SharesFiles
      (do
        let database := (← get).database
        onStore (Files.writeMetadata (Database.metadataPlace database.directory) database.metadata)
        writeTablesWith key changed.widened database.loadedTables)
      save
      (workspace.registered key ⟨changed.schema, some records⟩)
      (workspace.registered key (.ofTable changed)) := by
  have hmetadata : (workspace.registered key ⟨changed.schema, some records⟩).database.metadata =
      (workspace.registered key (.ofTable changed)).database.metadata :=
    metadata_put workspace.database key rfl
  -- The entry of the key still has the old records; the changed table is written in their place.
  have hget : (workspace.registered key ⟨changed.schema, some records⟩).database.tables.get? key =
      some (.ofTable ⟨changed.schema, records⟩) := by
    rw [registered, OrderedMap.get?_put, if_pos rfl]
    rfl
  have htables := loadedTables_put hget changed
  simp only [registered, OrderedMap.put_put] at htables
  have hshares : SharesFiles (workspace.registered key ⟨changed.schema, some records⟩)
      (workspace.registered key (.ofTable changed)) := ⟨rfl, rfl⟩
  rw [save]
  refine agree_get_bind ?_
  dsimp only
  rw [hmetadata, hshares.directory]
  refine (agree_onStore hshares _).bind fun _ _ _ hlater => ?_
  simp only [registered, htables]
  exact agree_writeTablesWith hlater key changed _

theorem agree_insertWide_loaded (workspace : Workspace) (name : Text) (table : Table)
    (values : List Text) :
    Agree SharesFiles
      (do
        let (outcome, changed) := (WideTable.insert (values.map WideText.ofText)).runOn table.widened
        let _ ← Action.ofOutcome outcome
        register name.lower ⟨changed.schema, some table.records⟩
        let database := (← get).database
        onStore (Files.writeMetadata (Database.metadataPlace database.directory) database.metadata)
        writeTablesWith name.lower changed database.loadedTables)
      (do
        let (outcome, changed) := (do let _ ← Table.insert values : Action Table Unit).runOn table
        register name.lower (.ofTable changed)
        Action.ofOutcome outcome
        save) workspace workspace := by
  have hinsert := WideTable.runOn_insert_widened table values
  rcases hrun : (Table.insert values).runOn table with ⟨failure | id, changed⟩
  · rw [hrun] at hinsert
    rw [hinsert, runOn_bind, hrun]
    exact ⟨rfl, ⟨rfl, rfl⟩⟩
  · rw [hrun] at hinsert
    have hdone : (do let _ ← Table.insert values : Action Table Unit).runOn table =
        (.ok (), changed) := by
      rw [runOn_bind_of_ok hrun]
      rfl
    rw [hinsert, hdone]
    have hsave := agree_save_changed workspace name.lower changed table.records
    exact ⟨hsave.outcome, hsave.related⟩

theorem agree_insertWide (workspace : Workspace) (name : Text) (values : List Text) :
    Agree SharesFiles (insertWide name (values.map WideText.ofText))
      (onTable name (do let _ ← Table.insert values) >>= fun _ => save) workspace workspace := by
  rw [insertWide, onTable, bind_assoc]
  have hload := runOn_loadTable workspace name
  cases htable : workspace.tableOf name with
  | error failure =>
      rw [htable] at hload
      constructor <;> rw [runOn_bind, runOn_bind, hload]
      exact ⟨rfl, rfl⟩
  | ok table =>
      rw [htable] at hload
      have hnext := agree_insertWide_loaded (workspace.registered name.lower (.ofTable table)) name
        table values
      constructor <;> rw [runOn_bind_of_ok hload, runOn_bind_of_ok hload]
      · exact hnext.outcome
      · exact hnext.related

/-! ## Values with surrogates -/

theorem ensures_writeTablesWith {changed : WideTable} {cells : List WideText} {cell : WideText}
    (hcells : cells ∈ changed.rows) (hcell : cell ∈ cells) (hnone : WideText.encode? cell = none)
    {tables : List (Text × Table)} (hkey : key ∈ tables.map Prod.fst) (workspace : Workspace) :
    (writeTablesWith key changed tables).Ensures workspace (fun _ _ => False) fun _ _ => True := by
  -- The changed table is still to come, so that writing fails there if it does not fail before.
  induction tables generalizing workspace with
  | nil => cases hkey
  | cons entry rest ih =>
      rw [writeTablesWith]
      by_cases heq : entry.1 = key
      · simp only [if_pos heq, ensures_bind, ensures_get, onStore, ensures_within]
        exact (WideTable.ensures_save_of_unencodable hcells hcell hnone _ _).mono
          (fun _ _ hdone => hdone.elim) fun _ _ _ => .intro
      · simp only [if_neg heq, ensures_bind]
        have hrest := (List.mem_cons.1 hkey).resolve_left (Ne.symm heq)
        exact ensures_of_runOn rfl (fun _ _ => ih hrest _) fun _ _ => .intro

theorem ensures_insertWide {values : List WideText} {value : WideText} (hvalue : value ∈ values)
    (hnone : WideText.encode? value = none) (workspace : Workspace) (name : Text) :
    (insertWide name values).Ensures workspace (fun _ _ => False) fun _ _ => True := by
  rw [insertWide, ensures_bind]
  refine ensures_of_runOn rfl (fun table _ => ?_) fun _ _ => .intro
  have hinsert := WideTable.ensures_insert_row table.widened values
  rcases hrun : (WideTable.insert values).runOn table.widened with ⟨failure | id, changed⟩
  · exact .intro
  obtain ⟨cells, hcells, hall⟩ := hinsert.of_ok hrun
  simp only [ensures_bind, ensures_ofOutcome, register, ensures_modify, ensures_get, onStore,
    ensures_within]
  refine ⟨fun _ _ => ensures_of_runOn rfl (fun _ _ => ?_) fun _ _ => .intro, fun _ _ => .intro⟩
  refine ensures_writeTablesWith hcells (hall value hvalue) hnone ?_ _
  refine List.mem_map_of_mem (f := Prod.fst)
    (mem_loadedTables.2 ?_ : (name.lower, Table.mk changed.schema table.records) ∈ _)
  rw [OrderedMap.get?_put, if_pos rfl]
  rfl

end Workspace

namespace Session

theorem runOn_onWorkspace_save (session : Session) (action : Action Workspace Unit) :
    (onWorkspace action >>= fun _ => save).runOn session =
      (onWorkspace (action >>= fun _ => Workspace.save)).runOn session := by
  cases hcurrent : session.current with
  | none => rw [runOn_bind, runOn_onWorkspace_of_none hcurrent, runOn_onWorkspace_of_none hcurrent]
  | some current =>
      obtain ⟨name, database⟩ := current
      rw [runOn_bind, runOn_onWorkspace hcurrent, runOn_onWorkspace hcurrent, runOn_bind]
      rcases action.runOn ⟨database, session.store⟩ with ⟨failure | _, workspace⟩
      · rfl
      · have hcurrent : (session.entered name workspace).current =
            some (name, workspace.database) := rfl
        exact runOn_onWorkspace hcurrent Workspace.save

/-- An insertion of texts ends as the command does, with the files that the command leaves. -/
theorem insertWide_ofText (session : Session) (table : Text) (values : List Text) :
    session.insertWide table (values.map WideText.ofText) =
      (((execute (.insert table values)).runOn session).1.map fun _ => (),
        ((execute (.insert table values)).runOn session).2.store) := by
  have hexecute : (execute (.insert table values)).runOn session =
      (onWorkspace (Workspace.onTable table (do let _ ← Table.insert values) >>= fun _ =>
        Workspace.save) >>= fun _ => pure none).runOn session := by
    rw [execute, changeTable, runOn_bind, runOn_onWorkspace_save, runOn_bind]
  rw [hexecute, insertWide, runOn_bind]
  cases hcurrent : session.current with
  | none => rw [runOn_onWorkspace_of_none hcurrent, runOn_onWorkspace_of_none hcurrent]; rfl
  | some current =>
      obtain ⟨name, database⟩ := current
      obtain ⟨houtcome, hrelated⟩ :=
        Workspace.agree_insertWide ⟨database, session.store⟩ table values
      rw [runOn_onWorkspace hcurrent, runOn_onWorkspace hcurrent]
      rcases hrun : (Workspace.onTable table (do let _ ← Table.insert values) >>= fun _ =>
        Workspace.save).runOn ⟨database, session.store⟩ with ⟨failure | _, workspace⟩
      all_goals
        rw [hrun] at houtcome hrelated
        exact Prod.ext houtcome hrelated.store

/-- Whatever database is in use, a value with a surrogate is not inserted. -/
theorem isOk_insertWide_of_surrogate (session : Session) (table : Text) {values : List WideText}
    {value : WideText} (hvalue : value ∈ values) (hnone : WideText.encode? value = none) :
    (session.insertWide table values).1.isOk = false := by
  rw [insertWide]
  cases hcurrent : session.current with
  | none =>
      rw [runOn_onWorkspace_of_none hcurrent]
      rfl
  | some current =>
      obtain ⟨name, database⟩ := current
      have hfails := Workspace.ensures_insertWide hvalue hnone ⟨database, session.store⟩ table
      rw [runOn_onWorkspace hcurrent]
      rcases hrun : (Workspace.insertWide table values).runOn ⟨database, session.store⟩ with
        ⟨failure | _, workspace⟩
      · rfl
      · exact (hfails.of_ok hrun).elim

theorem insertWide_surrogate_unforeseen :
    ((after ['r'] firstTable).insertWide ['t'] [[.surrogate 0]]).1.mapError Failure.errorClass =
      .error (.inr .surrogate) := by
  decide +kernel

end Session

end Relbase
