import Relbase.Proofs.Files
import Relbase.Proofs.Store.Orderly
import Relbase.Proofs.Text.Lowered

/-!
# What the actions on a database in use ensure

A workspace is sound if its store is orderly, its database lies in a directory with a
metadata file, and its tables are sound.  Every action is described by what it makes of
a sound workspace, when it succeeds and when it fails.
-/

namespace Relbase

open Relbase.Action

/-! ## Sound workspaces -/

structure Registration.IsSound (key : Text) (registration : Registration) : Prop where
  schema : registration.schema.IsSound key
  table : ∀ table, registration.table? = some table → table.IsSound key

theorem Registration.isSound_ofTable {key : Text} {table : Table} (h : table.IsSound key) :
    (Registration.ofTable table).IsSound key where
  schema := h.schema
  table found hfound := by
    cases hfound
    exact h

theorem Schema.IsSound.key {key : Text} {schema : Schema} (h : schema.IsSound key) :
    IsIdentifier key ∧ key.lower = key := by
  obtain ⟨name, _, hname, rfl⟩ := h.displayName
  exact ⟨hname.lower, Text.lower_lower name⟩

/-! ## Files of a database -/

def fileIn (path name file : Text) : Place :=
  ((Place.root path).child name).child file

namespace Store.IsOrderly

variable {path name : Text} {store : Store}

theorem ensures_writeText (h : store.IsOrderly path) (hname : IsIdentifier name)
    (hparent : store.get? [name] = some .directory) {file : Text} (hstep : IsStep file)
    (task : StorageTask) (text : Text) :
    (Files.writeText task (fileIn path name file) text).Ensures store
      (fun _ later => (fileIn path name file).IsUsable ∧
        later = store.insert [name, file] (.file (.text text)))
      fun _ later => ¬ (fileIn path name file).IsUsable ∧ later = store := by
  have hlocate {key : Key} := @Place.locate_file store path name file key hname.isStep hstep h.root
  refine Files.ensures_change (fun later hformed hwrite => ?_) fun failure hno => ⟨fun husable => ?_, rfl⟩
  · obtain ⟨key, hkey, _, rfl⟩ := Store.write_eq_ok.1 hwrite
    obtain ⟨husable, _, rfl⟩ := (hlocate hformed).1 hkey
    exact ⟨husable, rfl⟩
  · refine hno _ husable.wellFormed (Store.write_eq_ok.2
      ⟨_, (hlocate husable.wellFormed).2 ⟨husable, hparent, rfl⟩, fun hentry => ?_, rfl⟩)
    obtain ⟨text, hfile⟩ := h.file name file _ hentry
    cases hfile

theorem runOn_readText (h : store.IsOrderly path) (hname : IsIdentifier name) {file : Text}
    (hstep : IsStep file) {text : Text} (htext : store.get? [name, file] = some (.file (.text text)))
    (task : StorageTask) :
    (Files.readText task (fileIn path name file)).runOn store = (.ok text, store) := by
  obtain ⟨_, husable⟩ := h.usable name file _ htext
  have hlocate := (@Place.locate_file store path name file [name, file] hname.isStep hstep h.root
    husable.wellFormed).2 ⟨husable, h.parent name file _ htext, rfl⟩
  exact Files.runOn_readText_of_ok husable.wellFormed (Store.read_eq_ok.2 ⟨_, hlocate, htext⟩)

theorem ensures_writeMetadata (h : store.IsOrderly path) (hname : IsIdentifier name)
    (hparent : store.get? [name] = some .directory) {schemas : List (Text × Schema)}
    (hschemas : SoundSchemas schemas) :
    (Files.writeMetadata (fileIn path name Database.metadataName)
      (.object (describing schemas))).Ensures store
      (fun _ later => AllCounted schemas ∧ (fileIn path name Database.metadataName).IsUsable ∧
        later = store.insert [name, Database.metadataName] (.file (.text (metadataText schemas))))
      fun _ later => ¬ (fileIn path name Database.metadataName).IsUsable ∧ later = store ∨
        ¬ AllCounted schemas ∧ (fileIn path name Database.metadataName).IsUsable ∧
          later = store.insert [name, Database.metadataName]
            (.file (.text (metadataText schemas))) := by
  rw [Files.writeMetadata, ensures_bind]
  refine (h.ensures_writeText hname hparent isStep_metadataName _ _).mono
    (fun _ later hwritten => ?_) fun _ _ hfailed => .inl hfailed
  split
  · rename_i hgap
    exact .inr ⟨fun hcounted => hschemas.counted_iff.1 hcounted (by simpa using hgap), hwritten⟩
  · rename_i hgap
    exact ⟨hschemas.counted_iff.2 (by simpa using hgap), hwritten⟩

end Store.IsOrderly

namespace Workspace

structure IsSound (path name : Text) (workspace : Workspace) : Prop where
  store : workspace.store.IsOrderly path
  identifier : IsIdentifier name
  directory : workspace.database.directory = (Place.root path).child name
  tables : ∀ key registration, workspace.database.tables.get? key = some registration →
    registration.IsSound key
  metadata : (workspace.store.get? [name, Database.metadataName]).isSome = true

def registered (workspace : Workspace) (key : Text) (registration : Registration) : Workspace :=
  { workspace with
    database := { workspace.database with
      tables := workspace.database.tables.put key registration } }

def unregistered (workspace : Workspace) (key : Text) : Workspace :=
  { workspace with
    database := { workspace.database with tables := workspace.database.tables.erase key } }

def withFile (workspace : Workspace) (name file text : Text) : Workspace :=
  { workspace with store := workspace.store.insert [name, file] (.file (.text text)) }

variable {path name : Text} {workspace : Workspace}

namespace IsSound

theorem parent (h : workspace.IsSound path name) :
    workspace.store.get? [name] = some .directory := by
  obtain ⟨entry, hentry⟩ := Option.isSome_iff_exists.1 h.metadata
  exact h.store.parent name _ entry hentry

theorem rowFilePlace_eq (h : workspace.IsSound path name) (key : Text) :
    workspace.database.rowFilePlace key = fileIn path name (Database.rowFileName key) := by
  rw [Database.rowFilePlace, h.directory]
  rfl

theorem registered (h : workspace.IsSound path name) {key : Text} {registration : Registration}
    (hregistration : registration.IsSound key) :
    (workspace.registered key registration).IsSound path name where
  store := h.store
  identifier := h.identifier
  directory := h.directory
  tables other found hfound := by
    obtain ⟨rfl, rfl⟩ | ⟨-, hold⟩ := OrderedMap.get?_put_eq_some_iff.1 hfound
    · exact hregistration
    · exact h.tables other found hold
  metadata := h.metadata

theorem unregistered (h : workspace.IsSound path name) (key : Text) :
    (workspace.unregistered key).IsSound path name where
  store := h.store
  identifier := h.identifier
  directory := h.directory
  tables other found hfound := by
    exact h.tables other found (OrderedMap.get?_erase_eq_some_iff.1 hfound).2
  metadata := h.metadata

theorem inStore {database : Database} {first second : Store}
    (h : Workspace.IsSound path name ⟨database, first⟩) (hsecond : second.IsOrderly path)
    (hmetadata : (second.get? [name, Database.metadataName]).isSome = true) :
    Workspace.IsSound path name ⟨database, second⟩ :=
  ⟨hsecond, h.identifier, h.directory, h.tables, hmetadata⟩

theorem withFile (h : workspace.IsSound path name) {file text : Text} (hstep : IsStep file)
    (husable : (fileIn path name file).IsUsable) (hmetadata : file = Database.metadataName →
      ∃ schemas, SoundSchemas schemas ∧ text = metadataText schemas) :
    (workspace.withFile name file text).IsSound path name where
  store := h.store.insertFile h.parent hstep husable hmetadata
  identifier := h.identifier
  directory := h.directory
  tables := h.tables
  metadata := by
    rw [Workspace.withFile, SortedMap.get?_insert]
    split
    · rfl
    · exact h.metadata

end IsSound

/-! ## Row files -/

def rowText (table : Table) : Text :=
  (RowFile.ofTable table).render

theorem ensures_writeTable (h : workspace.IsSound path name) {key : Text} (hkey : IsIdentifier key)
    (table : Table) :
    (writeTable key table).Ensures workspace
      (fun _ later => (fileIn path name (Database.rowFileName key)).IsUsable ∧
        later = workspace.withFile name (Database.rowFileName key) (rowText table))
      fun _ later => ¬ (fileIn path name (Database.rowFileName key)).IsUsable ∧
        later = workspace := by
  simp only [writeTable, ensures_bind, ensures_get]
  rw [h.rowFilePlace_eq, onStore, ensures_within]
  refine (h.store.ensures_writeText h.identifier h.parent hkey.isStep_rowFileName _ _).mono
    (fun _ later hwritten => ⟨hwritten.1, ?_⟩) fun _ later hfailed => ⟨hfailed.1, ?_⟩
  · rw [hwritten.2]
    rfl
  · rw [hfailed.2]

/-! ## Tables -/

theorem ensures_registration (name : Text) :
    (registration name).Ensures workspace
      (fun found later => workspace.database.tables.get? name.lower = some found ∧ later = workspace)
      fun _ later => workspace.database.tables.get? name.lower = none ∧ later = workspace := by
  simp only [registration, ensures_bind, ensures_get]
  split
  · rename_i found hfound
    exact ⟨hfound, rfl⟩
  · rename_i hnone
    exact ⟨hnone, rfl⟩

theorem Registration.eq_ofTable {registration : Registration} {table : Table}
    (h : registration.table? = some table) : registration = .ofTable table := by
  obtain ⟨records, hrecords, rfl⟩ := Option.map_eq_some_iff.1 h
  rw [Registration.ofTable, ← hrecords]

theorem ensures_loadTable (h : workspace.IsSound path name) (spelled : Text) :
    (loadTable spelled).Ensures workspace
      (fun table later => (workspace.database.tables.get? spelled.lower).isSome = true ∧
        table.IsSound spelled.lower ∧
          later = workspace.registered spelled.lower (.ofTable table))
      fun _ later => later = workspace := by
  rw [loadTable, ensures_bind]
  refine (ensures_registration spelled).mono (fun found later hfound => ?_) fun _ _ hfailed => hfailed.2
  obtain ⟨hfound, rfl⟩ := hfound
  have hsound := h.tables _ found hfound
  have hsome : (later.database.tables.get? spelled.lower).isSome = true := by
    rw [hfound]
    rfl
  split
  · rename_i table htable
    refine ⟨hsome, hsound.table table htable, ?_⟩
    rw [← Registration.eq_ofTable htable, Workspace.registered, OrderedMap.put_eq_self hfound]
  · simp only [ensures_bind, ensures_get, onStore, ensures_within]
    refine Files.ensures_readRows (fun file => ?_) fun _ => rfl
    have hload := Table.keepsSound_load (later.database.rowFilePlace spelled.lower).path file
      (.ofSchema found.schema) (Table.isSound_ofSchema hsound.schema)
    rw [ensures_ofOutcome]
    simp only [register, ensures_modify, ensures_pure]
    exact ⟨fun _ _ => ⟨hsome, hload.finally, rfl⟩, fun _ _ => trivial⟩

theorem ensures_onTable (h : workspace.IsSound path name) {α : Type} {spelled : Text}
    {action : Action Table α} (haction : Table.KeepsSound spelled.lower action) :
    (onTable spelled action).Ensures workspace
      (fun _ later => (workspace.database.tables.get? spelled.lower).isSome = true ∧
        ∃ table, table.IsSound spelled.lower ∧
          later = workspace.registered spelled.lower (.ofTable table))
      fun _ later => later = workspace ∨
        (workspace.database.tables.get? spelled.lower).isSome = true ∧
          ∃ table, table.IsSound spelled.lower ∧
            later = workspace.registered spelled.lower (.ofTable table) := by
  rw [onTable, ensures_bind]
  refine (ensures_loadTable h spelled).mono (fun table later hloaded => ?_) fun _ _ hfailed => .inl hfailed
  obtain ⟨hsome, htable, rfl⟩ := hloaded
  have hchanged := (haction table htable).finally
  have hregistered : (workspace.registered spelled.lower (.ofTable table)).registered spelled.lower
      (.ofTable (action.runOn table).2) =
        workspace.registered spelled.lower (.ofTable (action.runOn table).2) := by
    simp only [Workspace.registered, OrderedMap.put_put]
  simp only [ensures_bind, register, ensures_modify, ensures_ofOutcome]
  exact ⟨fun _ _ => ⟨hsome, _, hchanged, hregistered⟩,
    fun _ _ => .inr ⟨hsome, _, hchanged, hregistered⟩⟩

theorem freshAttributes_cases (names : List Text) :
    (∃ attributes, freshAttributes names = .ok attributes ∧ attributes.names = idName :: names) ∨
      freshAttributes names = .error .repeatedColumn := by
  have hfold : ∀ (rest : List Text) (set : AttributeSet),
      let outcome := rest.foldlM (fun set name =>
        if set.contains name then .error DbError.repeatedColumn else set.add name) set
      (∃ larger, outcome = .ok larger ∧ larger.names = set.names ++ rest) ∨
        outcome = .error .repeatedColumn := by
    intro rest
    induction rest with
    | nil => exact fun set => .inl ⟨set, rfl, (List.append_nil _).symm⟩
    | cons name rest ih =>
        intro set
        simp only [List.foldlM_cons]
        split
        · exact .inr rfl
        · rename_i hnew
          rw [AttributeSet.contains_iff] at hnew
          obtain ⟨larger, hadd, hlarger⟩ := AttributeSet.exists_add hnew
          rw [hadd]
          refine (ih larger).imp_left fun ⟨largest, hlargest, hnames⟩ => ⟨largest, hlargest, ?_⟩
          rw [hnames, hlarger, List.append_assoc, List.singleton_append]
  exact hfold names (.singleton idName)

theorem ensures_freshAttributes {names : List Text} (hnames : ∀ name ∈ names, IsIdentifier name)
    {attributes : AttributeSet} (h : freshAttributes names = .ok attributes) :
    (∃ rest, attributes.names = idName :: rest) ∧ ∀ name ∈ attributes.names, IsIdentifier name := by
  obtain ⟨found, hfound, hall⟩ | hfailed := freshAttributes_cases names
  · cases h.symm.trans hfound
    exact ⟨⟨names, hall⟩, hall ▸ List.forall_mem_cons.2 ⟨isIdentifier_idName, hnames⟩⟩
  · cases h.symm.trans hfailed

/-- A new table is registered and written; where its row file cannot be, it stays
registered. -/
theorem ensures_createTable (h : workspace.IsSound path name) {displayName : Text}
    {names : List Text} (hdisplay : IsIdentifier displayName)
    (hnames : ∀ name ∈ names, IsIdentifier name) :
    (createTable displayName names).Ensures workspace
      (fun _ later => ∃ table, table.IsSound displayName.lower ∧
        workspace.database.tables.get? displayName.lower = none ∧
          (fileIn path name (Database.rowFileName displayName.lower)).IsUsable ∧
            later = (workspace.registered displayName.lower (.ofTable table)).withFile name
              (Database.rowFileName displayName.lower) (rowText table))
      fun _ later => later = workspace ∨
        ∃ table, table.IsSound displayName.lower ∧
          workspace.database.tables.get? displayName.lower = none ∧
            ¬ (fileIn path name (Database.rowFileName displayName.lower)).IsUsable ∧
              later = workspace.registered displayName.lower (.ofTable table) := by
  simp only [createTable, ensures_bind, ensures_get]
  split
  · exact .inl rfl
  · rename_i hnew
    have hnone : workspace.database.tables.get? displayName.lower = none := by
      simpa [Database.hasTable, OrderedMap.contains] using hnew
    split
    · exact .inl rfl
    · rename_i attributes hattributes
      obtain ⟨hhead, hidentifiers⟩ := ensures_freshAttributes hnames hattributes
      have htable : (Table.ofSchema (.fresh displayName attributes)).IsSound displayName.lower :=
        Table.isSound_ofSchema (.fresh hdisplay hhead hidentifiers)
      rw [ensures_bind, register, ensures_modify]
      exact (ensures_writeTable (h.registered (Registration.isSound_ofTable htable)) hdisplay.lower _).mono
        (fun _ later hdone => ⟨_, htable, hnone, hdone.1, hdone.2⟩)
        fun _ later hfailed => .inr ⟨_, htable, hnone, hfailed.1, hfailed.2⟩

def withoutFile (workspace : Workspace) (name file : Text) : Workspace :=
  { workspace with store := workspace.store.erase [name, file] }

theorem ensures_dropTable (h : workspace.IsSound path name) (spelled : Text) :
    (dropTable spelled).Ensures workspace
      (fun _ later => (workspace.database.tables.get? spelled.lower).isSome = true ∧
        later = (workspace.unregistered spelled.lower).withoutFile name
          (Database.rowFileName spelled.lower))
      fun _ later => later = workspace ∨
        (workspace.database.tables.get? spelled.lower).isSome = true ∧
          workspace.store.get? [name, Database.rowFileName spelled.lower] = none ∧
            later = workspace.unregistered spelled.lower := by
  rw [dropTable, ensures_bind]
  refine (ensures_registration spelled).mono (fun found later hfound => ?_) fun _ _ hfailed => .inl hfailed.2
  obtain ⟨hfound, rfl⟩ := hfound
  have hsome : (later.database.tables.get? spelled.lower).isSome = true := by
    rw [hfound]
    rfl
  have hkey := ((h.tables _ found hfound).schema.key).1
  have hlocate {key : Key} := @Place.locate_file later.store path name
    (Database.rowFileName spelled.lower) key h.identifier.isStep hkey.isStep_rowFileName h.store.root
  simp only [ensures_bind, unregister, ensures_modify, ensures_get, onStore, ensures_within]
  change (Files.deleteFile (later.database.rowFilePlace spelled.lower)).Ensures later.store _ _
  rw [h.rowFilePlace_eq]
  refine Files.ensures_change (fun next hformed hremove => ?_) fun failure hno => .inr ⟨hsome, ?_, rfl⟩
  · obtain ⟨key, hkey, _, rfl⟩ := Store.remove_eq_ok.1 hremove
    obtain ⟨_, _, rfl⟩ := (hlocate hformed).1 hkey
    exact ⟨hsome, rfl⟩
  · cases hentry : later.store.get? [name, Database.rowFileName spelled.lower] with
    | none => rfl
    | some entry =>
        obtain ⟨text, rfl⟩ := h.store.file name _ entry hentry
        obtain ⟨_, husable⟩ := h.store.usable name _ _ hentry
        exact absurd (Store.remove_eq_ok.2 ⟨_, (hlocate husable.wellFormed).2 ⟨husable, h.parent, rfl⟩,
          ⟨.text text, hentry⟩, rfl⟩) (hno _ husable.wellFormed)

/-! ## Saving -/

def withRows (workspace : Workspace) (name : Text) (tables : List (Text × Table)) : Workspace :=
  tables.foldl (fun written entry =>
    written.withFile name (Database.rowFileName entry.1) (rowText entry.2)) workspace

theorem IsSound.withRows (h : workspace.IsSound path name) {tables : List (Text × Table)}
    (hkeys : ∀ entry ∈ tables, IsIdentifier entry.1)
    (husable : ∀ entry ∈ tables, (fileIn path name (Database.rowFileName entry.1)).IsUsable) :
    (workspace.withRows name tables).IsSound path name := by
  induction tables generalizing workspace with
  | nil => exact h
  | cons entry rest ih =>
      obtain ⟨hkey, hkeys⟩ := List.forall_mem_cons.1 hkeys
      obtain ⟨hfirst, husable⟩ := List.forall_mem_cons.1 husable
      exact ih (h.withFile hkey.isStep_rowFileName hfirst
        fun heq => absurd heq (rowFileName_ne_metadataName entry.1)) hkeys husable

theorem ensures_writeTables (h : workspace.IsSound path name) {tables : List (Text × Table)}
    (hkeys : ∀ entry ∈ tables, IsIdentifier entry.1) :
    (writeTables tables).Ensures workspace
      (fun _ later => (∀ entry ∈ tables, (fileIn path name (Database.rowFileName entry.1)).IsUsable) ∧
        later = workspace.withRows name tables)
      fun _ later => ∃ front entry back, tables = front ++ entry :: back ∧
        (∀ entry ∈ front, (fileIn path name (Database.rowFileName entry.1)).IsUsable) ∧
          ¬ (fileIn path name (Database.rowFileName entry.1)).IsUsable ∧
            later = workspace.withRows name front := by
  induction tables generalizing workspace with
  | nil => exact ⟨fun _ hmem => absurd hmem List.not_mem_nil, rfl⟩
  | cons entry rest ih =>
      obtain ⟨hkey, hrest⟩ := List.forall_mem_cons.1 hkeys
      rw [writeTables, ensures_bind]
      refine (ensures_writeTable h hkey entry.2).mono (fun _ later hwritten => ?_)
        fun _ later hfailed => ?_
      · obtain ⟨husable, rfl⟩ := hwritten
        have hsound : (workspace.withFile name (Database.rowFileName entry.1)
            (rowText entry.2)).IsSound path name :=
          h.withFile hkey.isStep_rowFileName husable
            fun heq => absurd heq (rowFileName_ne_metadataName entry.1)
        refine (ih hsound hrest).mono (fun _ later hdone => ?_) fun _ later hfailed => ?_
        · exact ⟨List.forall_mem_cons.2 ⟨husable, hdone.1⟩, hdone.2⟩
        · obtain ⟨front, bad, back, rfl, hfront, hbad, rfl⟩ := hfailed
          exact ⟨entry :: front, bad, back, rfl, List.forall_mem_cons.2 ⟨husable, hfront⟩, hbad, rfl⟩
      · exact ⟨[], entry, rest, rfl, fun _ hmem => absurd hmem List.not_mem_nil, hfailed.1, hfailed.2⟩

theorem IsSound.soundSchemas (h : workspace.IsSound path name) :
    SoundSchemas workspace.database.schemas where
  distinct := by
    rw [Database.schemas, Assoc.keys_map Registration.schema]
    exact workspace.database.tables.distinct
  sound entry hentry := by
    obtain ⟨⟨key, registration⟩, hmem, rfl⟩ := List.mem_map.1 hentry
    exact (h.tables key registration (OrderedMap.get?_eq_some_iff.2 hmem)).schema

theorem mem_loadedTables {database : Database} {key : Text} {table : Table} :
    (key, table) ∈ database.loadedTables ↔ database.tables.get? key = some (.ofTable table) := by
  rw [OrderedMap.get?_eq_some_iff, Database.loadedTables, List.mem_filterMap]
  constructor
  · rintro ⟨⟨other, registration⟩, hmem, heq⟩
    obtain ⟨found, hfound, heq⟩ := Option.map_eq_some_iff.1 heq
    cases heq
    rwa [← Registration.eq_ofTable hfound]
  · exact fun hmem => ⟨_, hmem, rfl⟩

theorem IsSound.loaded (h : workspace.IsSound path name) :
    ∀ entry ∈ workspace.database.loadedTables, entry.2.IsSound entry.1 := by
  rintro ⟨key, table⟩ hentry
  exact (h.tables key _ (mem_loadedTables.1 hentry)).table table rfl

theorem IsSound.usable_metadata (h : workspace.IsSound path name) :
    (fileIn path name Database.metadataName).IsUsable := by
  obtain ⟨entry, hentry⟩ := Option.isSome_iff_exists.1 h.metadata
  exact (h.store.usable name _ entry hentry).2

def withMetadata (workspace : Workspace) (name : Text) : Workspace :=
  workspace.withFile name Database.metadataName (metadataText workspace.database.schemas)

theorem IsSound.withMetadata (h : workspace.IsSound path name) :
    (workspace.withMetadata name).IsSound path name :=
  h.withFile isStep_metadataName h.usable_metadata fun _ => ⟨_, h.soundSchemas, rfl⟩

theorem IsSound.metadataPlace_eq (h : workspace.IsSound path name) :
    Database.metadataPlace workspace.database.directory =
      fileIn path name Database.metadataName := by
  rw [Database.metadataPlace, h.directory]
  rfl

theorem IsSound.isIdentifier_loaded (h : workspace.IsSound path name) :
    ∀ entry ∈ workspace.database.loadedTables, IsIdentifier entry.1 :=
  fun entry hentry => ((h.loaded entry hentry).schema.key).1

/-- Saving writes the metadata and then the row files of the loaded tables.  It fails only
at a counter with too many digits or where a row file cannot be. -/
theorem ensures_save (h : workspace.IsSound path name) :
    save.Ensures workspace
      (fun _ later => AllCounted workspace.database.schemas ∧
        (∀ entry ∈ workspace.database.loadedTables,
          (fileIn path name (Database.rowFileName entry.1)).IsUsable) ∧
        later = (workspace.withMetadata name).withRows name workspace.database.loadedTables)
      fun _ later =>
        (AllCounted workspace.database.schemas → ∃ entry ∈ workspace.database.loadedTables,
          ¬ (fileIn path name (Database.rowFileName entry.1)).IsUsable) ∧
        ∃ written, (∀ entry ∈ written, entry ∈ workspace.database.loadedTables ∧
          (fileIn path name (Database.rowFileName entry.1)).IsUsable) ∧
          later = (workspace.withMetadata name).withRows name written := by
  simp only [save, ensures_bind, ensures_get, onStore, ensures_within]
  rw [h.metadataPlace_eq, Database.metadata_eq]
  refine (h.store.ensures_writeMetadata h.identifier h.parent h.soundSchemas).mono
    (fun _ later hwritten => ?_) fun _ later hfailed => ?_
  · obtain ⟨hcounted, _, rfl⟩ := hwritten
    refine (ensures_writeTables h.withMetadata h.isIdentifier_loaded).mono (fun _ last hdone => ?_) fun _ last hfailed => ?_
    · exact ⟨hcounted, hdone⟩
    · obtain ⟨front, bad, back, htables, hfront, hbad, hlast⟩ := hfailed
      refine ⟨fun _ => ⟨bad, htables ▸ by simp, hbad⟩, front, fun entry hentry => ⟨?_, hfront entry hentry⟩, hlast⟩
      rw [htables]
      exact List.mem_append_left _ hentry
  · rcases hfailed with ⟨hno, _⟩ | ⟨hcounted, _, rfl⟩
    · exact absurd h.usable_metadata hno
    · exact ⟨fun hall => absurd hall hcounted, [], fun _ hmem => absurd hmem List.not_mem_nil, rfl⟩

end Workspace

end Relbase
