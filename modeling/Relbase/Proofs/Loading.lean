import Relbase.Proofs.Table.Failures
import Relbase.Proofs.Table.Rows
import Relbase.Proofs.Workspace

/-!
# Loading tables

The table of a name is a function of the workspace: what is in memory if the table is
loaded, and else what its row file holds.  Loading a table registers just that, and an action
on a table acts on it; a table that cannot be loaded leaves the workspace as it is.
-/

namespace Relbase

open Relbase.Action

theorem Store.IsOrderly.exists_text_of_read {path name file : Text} {store : Store}
    (h : store.IsOrderly path) (hname : IsIdentifier name) (hfile : IsStep file)
    (hformed : (fileIn path name file).isMalformed = false) {content : Content}
    (hread : store.read (fileIn path name file) = .ok content) : ∃ text, content = .text text := by
  obtain ⟨key, hkey, hentry⟩ := Store.read_eq_ok.1 hread
  obtain ⟨_, _, rfl⟩ := (Place.locate_file hname.isStep hfile h.root hformed).1 hkey
  obtain ⟨text, heq⟩ := h.file name file _ hentry
  exact ⟨text, by cases heq; rfl⟩

namespace Workspace

/-! ## The table of a name -/

def tableAt (store : Store) (place : Place) (schema : Schema) : Except Failure Table := do
  let file ← ((Files.readRows place).runOn store).1
  let loaded := (Table.load place.path file).runOn (Table.ofSchema schema)
  loaded.1
  return loaded.2

variable {path name : Text} {workspace : Workspace}

def tableOf (workspace : Workspace) (spelled : Text) : Except Failure Table :=
  match workspace.database.tables.get? spelled.lower with
  | none => .error (.reported (.tableNotFound spelled))
  | some found =>
      match found.table? with
      | some table => .ok table
      | none =>
          tableAt workspace.store (workspace.database.rowFilePlace spelled.lower) found.schema

theorem tableOf_loaded {spelled : Text} {table : Table}
    (h : workspace.database.tables.get? spelled.lower = some (.ofTable table)) :
    workspace.tableOf spelled = .ok table := by
  rw [tableOf, h]
  rfl

/-! ## Loading -/

theorem runOn_registration (workspace : Workspace) (spelled : Text) :
    (registration spelled).runOn workspace =
      (match workspace.database.tables.get? spelled.lower with
      | none => .error (.reported (.tableNotFound spelled))
      | some found => .ok found, workspace) := by
  rw [registration, runOn_get_bind]
  cases workspace.database.tables.get? spelled.lower <;> rfl

/-- The result and the workspace of an action on the table of a name that leaves the changed
table registered. -/
def acted {α : Type} (workspace : Workspace) (spelled : Text) (action : Action Table α) :
    Except Failure α × Workspace :=
  match workspace.tableOf spelled with
  | .ok table =>
      ((action.runOn table).1, workspace.registered spelled.lower (.ofTable (action.runOn table).2))
  | .error failure => (.error failure, workspace)

theorem runOn_loadTable (workspace : Workspace) (spelled : Text) :
    (loadTable spelled).runOn workspace =
      match workspace.tableOf spelled with
      | .ok table => (.ok table, workspace.registered spelled.lower (.ofTable table))
      | .error failure => (.error failure, workspace) := by
  rw [loadTable, runOn_bind, runOn_registration, tableOf]
  cases hfound : workspace.database.tables.get? spelled.lower with
  | none => rfl
  | some found =>
      cases htable : found.table? with
      | some table =>
          simp only [htable, runOn_pure]
          rw [← Registration.eq_ofTable htable, Workspace.registered, OrderedMap.put_eq_self hfound]
      | none =>
          simp only [htable]
          rw [runOn_get_bind, runOn_bind, onStore, runOn_within, Files.runOn_readRows_snd, tableAt]
          cases ((Files.readRows (workspace.database.rowFilePlace spelled.lower)).runOn
            workspace.store).1 with
          | error failure => rfl
          | ok file =>
              simp only [bind, Except.bind]
              rcases (Table.load (workspace.database.rowFilePlace spelled.lower).path file).runOn
                (Table.ofSchema found.schema) with ⟨_ | _, table⟩ <;> rfl

theorem outcome_loadTable (workspace : Workspace) (spelled : Text) :
    ((loadTable spelled).runOn workspace).1 = workspace.tableOf spelled := by
  rw [runOn_loadTable]
  cases workspace.tableOf spelled <;> rfl

theorem runOn_onTable {α : Type} (workspace : Workspace) (spelled : Text)
    (action : Action Table α) :
    (onTable spelled action).runOn workspace = workspace.acted spelled action := by
  rw [onTable, runOn_bind, runOn_loadTable, acted]
  cases workspace.tableOf spelled with
  | error failure => rfl
  | ok table =>
      have hregistered : (workspace.registered spelled.lower (.ofTable table)).registered
          spelled.lower (.ofTable (action.runOn table).2) =
            workspace.registered spelled.lower (.ofTable (action.runOn table).2) := by
        simp only [Workspace.registered, OrderedMap.put_put]
      exact congrArg _ hregistered

theorem runOn_onTable_eq_ok {α : Type} {spelled : Text} {action : Action Table α} {result : α}
    {later : Workspace} :
    (onTable spelled action).runOn workspace = (.ok result, later) ↔
      ∃ table changed, workspace.tableOf spelled = .ok table ∧
        action.runOn table = (.ok result, changed) ∧
          later = workspace.registered spelled.lower (.ofTable changed) := by
  rw [runOn_onTable, acted]
  cases workspace.tableOf spelled with
  | error failure => simp
  | ok table =>
      rcases hrun : action.runOn table with ⟨outcome, changed⟩
      simp [hrun, eq_comm]

theorem ensures_onTable_of_tableOf {α : Type} {spelled : Text} {action : Action Table α}
    {done : α → Workspace → Prop} {failed : Failure → Workspace → Prop}
    (hnone : ∀ failure, workspace.tableOf spelled = .error failure → failed failure workspace)
    (hsome : ∀ table, workspace.tableOf spelled = .ok table →
      action.Ensures table
        (fun result changed =>
          done result (workspace.registered spelled.lower (.ofTable changed)))
        fun failure changed =>
          failed failure (workspace.registered spelled.lower (.ofTable changed))) :
    (onTable spelled action).Ensures workspace done failed := by
  rw [Ensures, runOn_onTable, acted]
  cases htable : workspace.tableOf spelled with
  | error failure => exact hnone failure htable
  | ok table =>
      have haction := hsome table htable
      unfold Ensures at haction
      rcases hrun : action.runOn table with ⟨_ | _, changed⟩
      all_goals
        rw [hrun] at haction
        simpa only [hrun] using haction

/-- Whatever a row file holds, the table that it is read as has the given schema, records with
their ids and cells, and plain cells. -/
theorem of_tableAt {store : Store} {place : Place} {schema : Schema} {table : Table}
    (h : tableAt store place schema = .ok table) :
    place.isMalformed = false ∧ (∃ text, store.read place = .ok (.text text)) ∧
      table.schema = schema ∧ table.HasRecords ∧ table.IsPlain := by
  have hread : (Files.readRows place).Ensures store (fun file _ => place.isMalformed = false ∧
      ∃ text, store.read place = .ok (.text text) ∧ file = RowFile.parse text) fun _ _ => True := by
    rw [Files.readRows, ensures_bind]
    exact Files.ensures_readText (fun text hformed hread => ⟨hformed, text, hread, rfl⟩)
      fun _ => trivial
  rw [tableAt] at h
  rcases hfile : (Files.readRows place).runOn store with ⟨_ | file, later⟩
  · simp [hfile, bind, Except.bind] at h
  · rw [hfile] at h
    obtain ⟨hformed, text, htext, rfl⟩ := hread.of_ok hfile
    have hrecords := Table.hasRecords_load place.path (RowFile.parse text) (Table.ofSchema schema)
    have hplain := Table.isPlain_load place.path text (Table.ofSchema schema)
    rcases hload : (Table.load place.path (RowFile.parse text)).runOn (Table.ofSchema schema) with
      ⟨_ | _, loaded⟩
    · simp [hload, bind, Except.bind] at h
    · simp only [hload, bind, Except.bind, pure, Except.pure, Except.ok.injEq] at h
      subst h
      exact ⟨hformed, ⟨text, htext⟩, (hrecords.of_ok hload).1, (hrecords.of_ok hload).2,
        hplain.of_ok hload⟩

theorem isSound_of_tableAt {store : Store} {place : Place} {key : Text} {schema : Schema}
    (hschema : schema.IsSound key) {table : Table} (h : tableAt store place schema = .ok table) :
    table.IsSound key ∧ table.IsPlain := by
  obtain ⟨_, _, rfl, hrecords, hplain⟩ := of_tableAt h
  exact ⟨⟨hschema, hrecords⟩, hplain⟩

theorem tableAt_of_readText {store : Store} {place : Place} {table : Table}
    (hread : (Files.readText (.readRows place.path) place).runOn store =
      (.ok (rowText table), store)) (hschema : table.schema.IsTabular)
    (hrecords : table.HasRecords) (hplain : table.IsPlain) :
    tableAt store place table.schema = .ok table := by
  have hrows : (Files.readRows place).runOn store = (.ok (RowFile.parse (rowText table)), store) := by
    rw [Files.readRows, runOn_bind_of_ok hread]
    rfl
  have hload := hrecords.runOn_load place.path (hrecords.rows_parse_render hschema hplain)
  rw [tableAt, hrows, rowText]
  simp only [bind, Except.bind, hload]
  rfl

theorem tableAt_rowText {store : Store} (horderly : store.IsOrderly path) (hname : IsIdentifier name)
    {key : Text} {table : Table} (htable : table.IsSound key) (hplain : table.IsPlain)
    (htext : store.get? [name, Database.rowFileName key] = some (.file (.text (rowText table)))) :
    tableAt store (fileIn path name (Database.rowFileName key)) table.schema = .ok table :=
  tableAt_of_readText
    (horderly.runOn_readText hname htable.schema.key.1.isStep_rowFileName htext _)
    htable.schema.isTabular htable.records hplain

theorem isSound_of_tableOf (h : workspace.IsSound path name) {spelled : Text} {table : Table}
    (htable : workspace.tableOf spelled = .ok table) : table.IsSound spelled.lower := by
  rw [tableOf] at htable
  split at htable
  · cases htable
  · rename_i found hfound
    have hregistration := h.tables _ found hfound
    split at htable
    · rename_i loaded hloaded
      cases htable
      exact hregistration.table table hloaded
    · exact (isSound_of_tableAt hregistration.schema htable).1

/-! ## Failures -/

theorem IsSound.isMalformed_rowFile (h : workspace.IsSound path name) {key : Text}
    (hkey : IsIdentifier key) :
    (fileIn path name (Database.rowFileName key)).isMalformed = false := by
  have hformed := h.usable_metadata.wellFormed
  rw [fileIn, Place.isMalformed_file h.identifier isStep_metadataName notMem_metadataName] at hformed
  rw [fileIn, Place.isMalformed_file h.identifier hkey.isStep_rowFileName hkey.notMem_rowFileName,
    hformed]

theorem IsSound.tableAt (h : workspace.IsSound path name) {key : Text} {schema : Schema}
    (hschema : schema.IsSound key) :
    match tableAt workspace.store (workspace.database.rowFilePlace key) schema with
    | .ok table => table.schema = schema
    | .error failure => failure.IsEarly := by
  have hkey := hschema.key.1
  have hformed := h.isMalformed_rowFile hkey
  rw [h.rowFilePlace_eq, Workspace.tableAt]
  have hread := Files.ensures_readRows_refusal hformed
    fun content => h.store.exists_text_of_read h.identifier hkey.isStep_rowFileName hformed
  rcases hfile : (Files.readRows (fileIn path name (Database.rowFileName key))).runOn
    workspace.store with ⟨failure | file, later⟩
  · exact (hread.of_error hfile).isEarly
  · have hload := @Table.ensures_load (Table.ofSchema schema)
      (fileIn path name (Database.rowFileName key)).path file hschema.idName_mem
    simp only [bind, Except.bind]
    rcases hloaded : (Table.load (fileIn path name (Database.rowFileName key)).path file).runOn
      (Table.ofSchema schema) with ⟨failure | _, table⟩
    · exact (hload.of_error hloaded).1
    · exact hload.of_ok hloaded

theorem IsSound.tableOf (h : workspace.IsSound path name) (spelled : Text) :
    match workspace.tableOf spelled with
    | .ok table => (workspace.database.tables.get? spelled.lower).map Registration.schema =
        some table.schema
    | .error failure => failure.IsEarly := by
  rw [Workspace.tableOf]
  cases hfound : workspace.database.tables.get? spelled.lower with
  | none => exact ⟨trivial, rfl⟩
  | some found =>
      cases htable : found.table? with
      | some table =>
          rw [Registration.eq_ofTable htable]
          rfl
      | none =>
          have hloaded := h.tableAt (h.tables _ found hfound).schema
          simp only [htable]
          split <;> rename_i hat <;> rw [hat] at hloaded
          · exact congrArg some hloaded.symm
          · exact hloaded

end Workspace

end Relbase
