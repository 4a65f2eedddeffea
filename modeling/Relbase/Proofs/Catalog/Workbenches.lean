import Relbase.Proofs.Catalog.Databases
import Relbase.Proofs.Registering
import Relbase.Proofs.Text.Lowered

/-!
# Actions on an open database

Every action on an open database does to it what the action of its name does to the database that
it represents, with the same outcome.  Saving looks each loaded table up again by its key, and
finds it because keys are in lower case.
-/

namespace Relbase

open Relbase.Action

namespace Workbench

variable {heap : SchemaHeap} {opened : OpenDatabase} {database : Database} {bench : Workbench}
  {workspace : Workspace}

inductive Represents : Workbench → Workspace → Prop
  | intro {heap : SchemaHeap} {opened : OpenDatabase} {database : Database}
      (h : opened.Represents heap database) (store : Store) :
      Represents ⟨heap, opened, store⟩ ⟨database, store⟩

inductive Beside (heap : SchemaHeap) (opened : OpenDatabase) (database : Database) :
    Workbench → Workspace → Prop
  | intro (store : Store) : Beside heap opened database ⟨heap, opened, store⟩ ⟨database, store⟩

theorem represents_of_beside (h : opened.Represents heap database) (later : Workbench)
    (last : Workspace) (hbeside : Beside heap opened database later last) :
    later.Represents last := by
  obtain ⟨store⟩ := hbeside
  exact .intro h store

theorem agree_onStore {α : Type} (heap : SchemaHeap) (opened : OpenDatabase) (database : Database)
    (store : Store) (action : Action Store α) :
    Agree (Beside heap opened database) (onStore action) (Workspace.onStore action)
      ⟨heap, opened, store⟩ ⟨database, store⟩ :=
  ⟨rfl, .intro _⟩

theorem rowFilePlace_eq (h : opened.Represents heap database) (key : Text) :
    opened.rowFilePlace key = database.rowFilePlace key := by
  rw [OpenDatabase.rowFilePlace, h.directory]
  rfl

theorem hasTable_eq (h : opened.Represents heap database) (name : Text) :
    opened.hasTable name = database.hasTable name := by
  rw [OpenDatabase.hasTable, Database.hasTable, OrderedMap.contains, OrderedMap.contains,
    h.get?_tables, Option.isSome_map, h.isSome_schemas]

theorem runOn_entry (bench : Workbench) (name : Text) :
    (entry name).runOn bench =
      (match bench.database.tables.get? name.lower with
      | none => .error (.reported (.tableNotFound name))
      | some found => .ok found, bench) := by
  rw [entry, runOn_get_bind]
  cases bench.database.tables.get? name.lower <;> rfl

/-! ## Loading -/

def withTable (bench : Workbench) (key : Text) (table : TableObject) : Workbench :=
  { bench with database := { bench.database with
      tables := bench.database.tables.put key (some table) } }

theorem runOn_loadTable (h : opened.Represents heap database) (store : Store) (name : Text) :
    match Workspace.tableOf ⟨database, store⟩ name with
    | .error failure =>
        (loadTable name).runOn ⟨heap, opened, store⟩ = (.error failure, ⟨heap, opened, store⟩)
    | .ok table => ∃ object, (loadTable name).runOn ⟨heap, opened, store⟩ =
        (.ok object, withTable ⟨heap, opened, store⟩ name.lower object) ∧
          object.seen heap = table ∧ opened.schemas.get? name.lower = some object.schema := by
  rw [loadTable, runOn_bind, runOn_entry, Workspace.tableOf]
  obtain ⟨htable, -, hfound⟩ | ⟨ref, htable, href, hfound⟩ | ⟨object, htable, href, hfound⟩ :=
    h.entry_cases name.lower
  · rw [htable, hfound]
  -- Reading the row file leaves the schema alone, so it is still the object of the other dictionary.
  · rw [htable, hfound]
    simp only [Registration.table?, Option.map_none]
    rw [runOn_get_bind]
    simp only [href]
    rw [runOn_bind, onStore, runOn_within, Files.runOn_readRows_snd, rowFilePlace_eq h,
      Workspace.tableAt]
    cases ((Files.readRows (database.rowFilePlace name.lower)).runOn store).1 with
    | error failure => rfl
    | ok file =>
        have hrecords := Table.hasRecords_load (database.rowFilePlace name.lower).path file
          (Table.ofSchema (heap.read ref))
        simp only [bind, Except.bind]
        rcases hload : (Table.load (database.rowFilePlace name.lower).path file).runOn
          (Table.ofSchema (heap.read ref)) with ⟨_ | _, schema, records⟩
        · rfl
        · obtain ⟨hschema : schema = heap.read ref, -⟩ := hrecords.of_ok hload
          cases hschema
          exact ⟨⟨ref, records⟩, rfl, rfl, rfl⟩
  · rw [htable, hfound]
    refine ⟨object, ?_, rfl, href⟩
    rw [withTable, OrderedMap.put_eq_self htable]
    rfl

/-- What is done with the object of a name agrees with what is done with its table, if it does
once the object is there. -/
theorem agree_loadTable_bind {α : Type} (h : bench.Represents workspace) (name : Text)
    {next : TableObject → Action Workbench α} {follow : Table → Action Workspace α}
    (hnext : ∀ object later last, Represents later last →
      later.database.schemas.get? name.lower = some object.schema →
        Agree Represents (next object) (follow (object.seen later.heap)) later last) :
    Agree Represents (loadTable name >>= next) (Workspace.loadTable name >>= follow) bench
      workspace := by
  obtain ⟨h, store⟩ := h
  rename_i heap opened database
  have hload := runOn_loadTable h store name
  have hrun := Workspace.runOn_loadTable ⟨database, store⟩ name
  cases htable : Workspace.tableOf ⟨database, store⟩ name with
  | error failure =>
      rw [htable] at hload hrun
      constructor <;> rw [runOn_bind, runOn_bind, hload, hrun]
      exact .intro h store
  | ok table =>
      rw [htable] at hload hrun
      obtain ⟨object, hobject, rfl, href⟩ := hload
      have hloaded := h.altered href (heap.read object.schema) object.records
      rw [SchemaHeap.write_read] at hloaded
      have hagree := hnext object _ _ (.intro hloaded store) href
      constructor <;> rw [runOn_bind_of_ok hobject, runOn_bind_of_ok hrun]
      · exact hagree.outcome
      · exact hagree.related

theorem agree_lookUp (h : bench.Represents workspace) (name : Text) :
    Agree Represents (lookUp name) (Workspace.loadTable name) bench workspace := by
  rw [lookUp, ← bind_pure (Workspace.loadTable name)]
  exact agree_loadTable_bind h name fun object later last hlater _ => ⟨rfl, hlater⟩

theorem agree_onTable {α : Type} (h : bench.Represents workspace) (name : Text)
    (action : Action Table α) :
    Agree Represents (onTable name action) (Workspace.onTable name action) bench workspace := by
  rw [onTable, Workspace.onTable]
  refine agree_loadTable_bind h name fun object later last hlater href => ?_
  obtain ⟨hlater, store⟩ := hlater
  rename_i heap opened database
  have hchanged := hlater.altered href (action.runOn (object.seen heap)).2.schema
    (action.runOn (object.seen heap)).2.records
  exact ⟨rfl, .intro hchanged store⟩

/-! ## Creating and dropping -/

theorem agree_writeTable (h : opened.Represents heap database) (store : Store) (key : Text)
    (object : TableObject) :
    Agree (Beside heap opened database) (writeTable key object)
      (Workspace.writeTable key (object.seen heap)) ⟨heap, opened, store⟩ ⟨database, store⟩ := by
  rw [writeTable, Workspace.writeTable]
  refine agree_get_bind ?_
  rw [rowFilePlace_eq h]
  exact agree_onStore heap opened database store _

theorem agree_createTable (h : bench.Represents workspace) (displayName : Text)
    (names : List Text) :
    Agree Represents (createTable displayName names) (Workspace.createTable displayName names)
      bench workspace := by
  obtain ⟨h, store⟩ := h
  rename_i heap opened database
  rw [createTable, Workspace.createTable]
  refine agree_get_bind ?_
  rw [hasTable_eq h]
  cases hexists : database.hasTable displayName with
  | true => exact ⟨rfl, .intro h store⟩
  | false =>
      cases Workspace.freshAttributes names with
      | error error => exact ⟨rfl, .intro h store⟩
      | ok attributes =>
          have hnew : opened.tables.get? displayName.lower = none := by
            rw [← hasTable_eq h] at hexists
            simpa [OpenDatabase.hasTable, OrderedMap.contains] using hexists
          have hcreated := h.created hnew (Text.lower_lower displayName)
            (.fresh displayName attributes)
          have hseen : TableObject.seen ⟨heap.next, SortedMap.empty⟩
              (heap.made (.fresh displayName attributes)) =
                Table.ofSchema (.fresh displayName attributes) := by
            rw [TableObject.seen, SchemaHeap.read_made_next]
            rfl
          have hwrite := agree_writeTable hcreated store displayName.lower
            ⟨heap.next, SortedMap.empty⟩
          rw [hseen] at hwrite
          have hagree := hwrite.mono (represents_of_beside hcreated)
          exact ⟨hagree.outcome, hagree.related⟩

theorem runOn_removeSchema {key : Text} {ref : SchemaRef}
    (href : bench.database.schemas.get? key = some ref) :
    (removeSchema key).runOn bench =
      (.ok (), { bench with database := { bench.database with
        schemas := bench.database.schemas.erase key } }) := by
  rw [removeSchema, runOn_get_bind, OrderedMap.contains, href]
  rfl

theorem agree_dropTable (h : bench.Represents workspace) (name : Text) :
    Agree Represents (dropTable name) (Workspace.dropTable name) bench workspace := by
  obtain ⟨h, store⟩ := h
  rename_i heap opened database
  have hentry := runOn_entry ⟨heap, opened, store⟩ name
  have hregistration := Workspace.runOn_registration ⟨database, store⟩ name
  have hkeys := h.isSome_schemas name.lower
  have hfound := h.get?_tables name.lower
  cases href : opened.schemas.get? name.lower with
  | none =>
      rw [href] at hkeys hfound
      have htable : opened.tables.get? name.lower = none := by simpa using hkeys.symm
      rw [htable] at hentry
      rw [hfound] at hregistration
      constructor <;>
        rw [dropTable, Workspace.dropTable, runOn_bind, runOn_bind, hentry, hregistration]
      · rfl
      · exact .intro h store
  | some ref =>
      rw [href] at hkeys hfound
      obtain ⟨entry, htable⟩ := Option.isSome_iff_exists.1 hkeys.symm
      rw [htable] at hentry
      rw [hfound] at hregistration
      have hdropped := h.dropped name.lower
      have hdelete := (agree_onStore heap _ _ store
        (Files.deleteFile (database.rowFilePlace name.lower))).mono (represents_of_beside hdropped)
      constructor <;> rw [dropTable, Workspace.dropTable, runOn_bind_of_ok hentry,
        runOn_bind_of_ok hregistration, runOn_bind_of_ok (runOn_removeSchema href)]
      · change ((onStore (Files.deleteFile (opened.rowFilePlace name.lower))).runOn _).1 = _
        rw [rowFilePlace_eq h]
        exact hdelete.outcome
      · change Represents
          ((onStore (Files.deleteFile (opened.rowFilePlace name.lower))).runOn _).2 _
        rw [rowFilePlace_eq h]
        exact hdelete.related

/-! ## Saving -/

theorem metadata_eq (h : opened.Represents heap database) :
    opened.metadata heap = database.metadata := by
  rw [OpenDatabase.metadata, Database.metadata, h.tables, List.map_map]
  rfl

theorem get?_of_mem_loadedTables (h : opened.Represents heap database) {key : Text} {table : Table}
    (hloaded : (key, table) ∈ database.loadedTables) :
    key.lower = key ∧ ∃ object, opened.tables.get? key = some (some object) ∧
      object.seen heap = table := by
  have hregistered := Workspace.mem_loadedTables.1 hloaded
  obtain ⟨-, -, hfound⟩ | ⟨ref, -, -, hfound⟩ | ⟨object, htable, href, hfound⟩ := h.entry_cases key
  · cases hregistered.symm.trans hfound
  · cases congrArg Registration.records (Option.some.inj (hregistered.symm.trans hfound))
  · refine ⟨h.lowered key _ href, object, htable, ?_⟩
    have heq := Option.some.inj (hregistered.symm.trans hfound)
    obtain ⟨schema, records⟩ := table
    cases heq
    rfl

theorem loadedNames_eq (h : opened.Represents heap database) :
    opened.loadedNames = database.loadedTables.map Prod.fst := by
  let isLoaded (key : Text) : Bool := (OpenDatabase.records? opened.tables key).isSome
  have hnames : opened.loadedNames = (Assoc.keys opened.tables.entries).filter isLoaded := by
    rw [Assoc.keys, ← List.filterMap_eq_filter, List.filterMap_map]
    refine List.filterMap_congr fun entry hentry => ?_
    have hget : opened.tables.get? entry.1 = some entry.2 := OrderedMap.get?_eq_some_iff.2 hentry
    simp only [Function.comp_apply, Option.guard, isLoaded, OpenDatabase.records?, hget]
    cases entry.2 <;> rfl
  have htables : database.loadedTables.map Prod.fst =
      (Assoc.keys opened.schemas.entries).filter isLoaded := by
    rw [Assoc.keys, ← List.filterMap_eq_filter, List.filterMap_map, Database.loadedTables, h.tables,
      List.filterMap_map, List.map_filterMap]
    refine List.filterMap_congr fun entry _ => ?_
    simp only [Function.comp_apply, Option.guard, isLoaded, Registration.table?]
    obtain hrecords | ⟨records, hrecords⟩ :=
      Option.eq_none_or_eq_some (OpenDatabase.records? opened.tables entry.1) <;> simp [hrecords]
  rw [hnames, htables, h.keys]

theorem agree_saveTables (h : opened.Represents heap database) (store : Store)
    {tables : List (Text × Table)} (hloaded : ∀ entry ∈ tables, entry ∈ database.loadedTables) :
    Agree (Beside heap opened database) (saveTables (tables.map Prod.fst))
      (Workspace.writeTables tables) ⟨heap, opened, store⟩ ⟨database, store⟩ := by
  induction tables generalizing store with
  | nil => exact ⟨rfl, .intro store⟩
  | cons entry rest ih =>
      obtain ⟨hentry, hrest⟩ := List.forall_mem_cons.1 hloaded
      rw [List.map_cons, saveTables, Workspace.writeTables]
      refine Agree.bind ?_ fun _ later last hlater => ?_
      · obtain ⟨hkey, object, htable, hseen⟩ := get?_of_mem_loadedTables h hentry
        have hwrite := agree_writeTable h store entry.1 object
        rw [hseen] at hwrite
        have hsave : (saveTable entry.1).runOn ⟨heap, opened, store⟩ =
            (writeTable entry.1 object).runOn ⟨heap, opened, store⟩ := by
          rw [saveTable, runOn_bind, runOn_entry]
          simp only [hkey, htable]
        exact ⟨hsave ▸ hwrite.outcome, hsave ▸ hwrite.related⟩
      · obtain ⟨store⟩ := hlater
        exact ih store hrest

theorem agree_save (h : bench.Represents workspace) :
    Agree Represents save Workspace.save bench workspace := by
  obtain ⟨h, store⟩ := h
  rename_i heap opened database
  rw [save, Workspace.save]
  refine (agree_get_bind ?_ : Agree (Beside heap opened database) _ _ _ _).mono
    (represents_of_beside h)
  rw [metadata_eq h, h.directory, loadedNames_eq h]
  refine (agree_onStore heap opened database store _).bind fun _ later last hlater => ?_
  obtain ⟨store⟩ := hlater
  exact agree_saveTables h store fun _ hentry => hentry

end Workbench

end Relbase
