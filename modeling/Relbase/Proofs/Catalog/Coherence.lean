import Relbase.Proofs.Catalog.Commands

/-!
# Memory after every run

The two dictionaries of a database in use have the same keys, the lower case of the names of the
tables, and a loaded table has the schema of its key.  Its attributes begin with the id, which is
the primary key, and every record has one cell for each attribute, of which the id's cell reads
as the number of the record.  This holds after every run, whatever commands failed in it.
-/

namespace Relbase

/-! ## Schemas and tables -/

structure Schema.IsCoherent (key : Text) (schema : Schema) : Prop where
  displayName : ∃ name, schema.displayName = .text name ∧ name.lower = key
  idFirst : ∃ rest, schema.attributes.names = idName :: rest
  distinct : (schema.attributes.names.map Text.lower).Nodup
  primaryKey : schema.primaryKey = .text idName

structure Table.IsCoherent (table : Table) : Prop where
  columns : ∀ id record, table.records.get? id = some record →
    ∀ column, column ∈ record.keys ↔ column ∈ table.attributes.names.map Text.lower
  ids : ∀ id record, table.records.get? id = some record →
    ∃ cell, record.get? idName = some cell ∧ Text.readInteger cell = .ok id

/-- The two dictionaries have the same keys, and a loaded table refers to the schema that stands
under its key. -/
structure OpenDatabase.IsCoherent (heap : SchemaHeap) (opened : OpenDatabase) : Prop where
  keys : ∀ key, key ∈ Assoc.keys opened.schemas.entries ↔ key ∈ Assoc.keys opened.tables.entries
  schema : ∀ key ref, opened.schemas.get? key = some ref → (heap.read ref).IsCoherent key
  shared : ∀ key table, opened.tables.get? key = some (some table) →
    opened.schemas.get? key = some table.schema
  loaded : ∀ key table, opened.tables.get? key = some (some table) → (table.seen heap).IsCoherent

/-- The two fields agree on whether a database is in use. -/
structure Catalog.IsCoherent (catalog : Catalog) : Prop where
  inUse : catalog.databaseName = none ↔ catalog.database = none
  database : ∀ opened, catalog.database = some opened → opened.IsCoherent catalog.heap

theorem Schema.IsSound.isCoherent {key : Text} {schema : Schema} (h : schema.IsSound key) :
    schema.IsCoherent key := by
  obtain ⟨name, hname, _, hkey⟩ := h.displayName
  exact ⟨⟨name, hname, hkey⟩, h.names, schema.attributes.distinct, h.primaryKey⟩

theorem Table.IsSound.isCoherent {key : Text} {table : Table} (h : table.IsSound key) :
    table.IsCoherent where
  columns id record hrecord column :=
    Assoc.isSome_get?_iff.symm.trans ((h.records id record hrecord).isSome_iff column)
  ids id record hrecord := (h.records id record hrecord).readsId

/-! ## What represents a sound session -/

theorem OpenDatabase.Represents.isCoherent {heap : SchemaHeap} {opened : OpenDatabase}
    {database : Database} (h : opened.Represents heap database)
    (hsound : ∀ key registration, database.tables.get? key = some registration →
      registration.IsSound key) : opened.IsCoherent heap where
  keys key := by rw [h.keys]
  schema key ref href := by
    have hfound := h.get?_tables key
    rw [href] at hfound
    exact (hsound key _ hfound).schema.isCoherent
  shared := h.shared
  loaded key table htable := by
    obtain ⟨hnone, -⟩ | ⟨_, hunloaded, -⟩ | ⟨found, hfound, -, hregistered⟩ := h.entry_cases key
    · cases htable.symm.trans hnone
    · cases htable.symm.trans hunloaded
    · cases htable.symm.trans hfound
      exact ((hsound key _ hregistered).table _ rfl).isCoherent

namespace Catalog

theorem Represents.isCoherent {path : Text} {catalog : Catalog} {session : Session}
    (h : catalog.Represents session) (hsound : session.IsSound path) : catalog.IsCoherent := by
  cases h with
  | idle root store heap => exact ⟨iff_of_true rfl rfl, fun _ hopened => by cases hopened⟩
  | inUse h root store name =>
      refine ⟨iff_of_false nofun nofun, fun _ hopened => ?_⟩
      cases hopened
      exact h.isCoherent (hsound.current name _ rfl).tables

/-! ## Runs -/

def react (catalog : Catalog) : Session.Event → Catalog
  | .query text => ((executeText text).runOn catalog).2
  | .reopening => start catalog.root catalog.store

def after (path : Text) (events : List Session.Event) : Catalog :=
  events.foldl react (start (.root path) Store.emptyRoot)

theorem represents_react {catalog : Catalog} {session : Session} (h : catalog.Represents session)
    (event : Session.Event) : (catalog.react event).Represents (session.react event) := by
  cases event with
  | query text => exact (agree_executeText h text).related
  | reopening =>
      rw [react, h.root_eq, h.store_eq]
      exact .idle session.root session.store .empty

theorem represents_after (path : Text) (events : List Session.Event) :
    (after path events).Represents (Session.after path events) := by
  -- By induction on the events, from any catalog and the session that it represents.
  have hfold : ∀ (catalog : Catalog) (session : Session), catalog.Represents session →
      (events.foldl react catalog).Represents (events.foldl Session.react session) := by
    induction events with
    | nil => exact fun _ _ h => h
    | cons event rest ih => exact fun _ _ h => ih _ _ (represents_react h event)
  exact hfold _ _ (.idle _ _ .empty)

/-- What commands have done to a catalog, failing ones included, leaves it coherent. -/
theorem isCoherent_after (path : Text) (events : List Session.Event) :
    (after path events).IsCoherent :=
  (represents_after path events).isCoherent (Session.isSound_after path events)

end Catalog

end Relbase
