import Mathlib.Data.List.Induction
import Relbase.Proofs.Session.Run

/-!
# When the files of a run agree

The metadata file of a database and its row files agree if every table that the metadata
describe has a row file with its attributes in the first line, and there is no other file.
They agree after every command of a run as long as no metadata file lists a table whose row
file cannot be, no counter has outgrown what is written, and no path of a metadata file is
too long; and no longer than that.
-/

namespace Relbase

/-! ## Files that agree -/

namespace Store

def Describes (store : Store) (name : Text) (descriptions : List (Text × Json)) : Prop :=
  ∃ text members, store.get? [name, Database.metadataName] = some (.file (.text text)) ∧
    Json.parse text.unifyNewlines = .ok (.object members) ∧
      Assoc.get? Database.tablesMember members = some (.object descriptions)

/-- Every described table has its row file, under its attributes, and every other file is
the metadata file. -/
structure Agrees (store : Store) (name : Text) (descriptions : List (Text × Json)) : Prop where
  distinct : (Assoc.keys descriptions).Nodup
  rowFile : ∀ description ∈ descriptions, ∃ fields names rest,
    description.2 = .object fields ∧
      Assoc.get? Schema.attributesMember fields = some (.list (names.map .text)) ∧
        store.get? [name, Database.rowFileName description.1] =
          some (.file (.text (RowFile.renderLine names ++ rest)))
  noOther : ∀ key, (store.get? key).isSome = true → [name] <+: key →
    key = [name] ∨ key = [name, Database.metadataName] ∨
      ∃ table ∈ Assoc.keys descriptions, key = [name, Database.rowFileName table]

def IsConsistent (store : Store) : Prop :=
  ∀ name, store.get? [name] = some .directory →
    ∃ descriptions, store.Describes name descriptions ∧ store.Agrees name descriptions

/-- The metadata file of a directory can be, was written to its end, and lists only tables
whose row files can be. -/
structure IsWithinLimits (store : Store) (path name : Text) : Prop where
  metadata : (fileIn path name Database.metadataName).IsUsable
  whole : ∀ text, store.get? [name, Database.metadataName] = some (.file (.text text)) →
    text.getLast? = some '\x7d'
  tables : ∀ descriptions, store.Describes name descriptions →
    ∀ table ∈ Assoc.keys descriptions, (fileIn path name (Database.rowFileName table)).IsUsable

structure Holds (store : Store) (name : Text) (schemas : List (Text × Schema)) : Prop where
  sound : SoundSchemas schemas
  counted : AllCounted schemas
  metadata : store.get? [name, Database.metadataName] =
    some (.file (.text (metadataText schemas)))
  rowFile : ∀ entry ∈ schemas, ∃ rest, store.get? [name, Database.rowFileName entry.1] =
    some (.file (.text (RowFile.renderLine entry.2.attributes.names ++ rest)))
  noOther : ∀ file, (store.get? [name, file]).isSome = true →
    file = Database.metadataName ∨ ∃ table ∈ Assoc.keys schemas, file = Database.rowFileName table

variable {path name : Text} {store : Store} {schemas : List (Text × Schema)}

theorem describes_iff (hsound : SoundSchemas schemas) (hcounted : AllCounted schemas)
    (htext : store.get? [name, Database.metadataName] = some (.file (.text (metadataText schemas))))
    {descriptions : List (Text × Json)} :
    store.Describes name descriptions ↔
      descriptions = schemas.map fun entry => (entry.1, entry.2.toJson) := by
  constructor
  · rintro ⟨text, members, hfile, hparse, hmember⟩
    rw [htext] at hfile
    cases hfile
    rw [hsound.parse_metadataText hcounted] at hparse
    cases hparse
    simpa [describing, Assoc.get?, eq_comm] using hmember
  · rintro rfl
    exact ⟨_, _, htext, hsound.parse_metadataText hcounted, by simp [describing, Assoc.get?]⟩

theorem Holds.agrees (h : store.Holds name schemas) (horderly : store.IsOrderly path) :
    store.Agrees name (schemas.map fun entry => (entry.1, entry.2.toJson)) where
  distinct := by
    rw [Assoc.keys_map Schema.toJson]
    exact h.sound.distinct
  rowFile description hdescription := by
    obtain ⟨entry, hentry, rfl⟩ := List.mem_map.1 hdescription
    obtain ⟨rest, hrest⟩ := h.rowFile entry hentry
    have hdistinct := Schema.nodup_memberNames
    simp only [List.nodup_cons, List.mem_cons, List.not_mem_nil, or_false, not_or] at hdistinct
    refine ⟨_, entry.2.attributes.names, rest, rfl, ?_, hrest⟩
    simp [Assoc.get?, hdistinct]
  noOther key hkey hprefix := by
    obtain ⟨tail, rfl⟩ := hprefix
    obtain ⟨entry, hentry⟩ := Option.isSome_iff_exists.1 hkey
    have hdepth := horderly.depth _ entry hentry
    rw [Assoc.keys_map Schema.toJson]
    cases tail with
    | nil => exact .inl rfl
    | cons file rest =>
        cases rest with
        | nil =>
            rcases h.noOther file hkey with rfl | ⟨table, htable, rfl⟩
            · exact .inr (.inl rfl)
            · exact .inr (.inr ⟨table, htable, rfl⟩)
        | cons _ _ => simp at hdepth

theorem isWithinLimits_of_agrees {descriptions : List (Text × Json)} (horderly : store.IsOrderly path)
    (hdescribes : store.Describes name descriptions) (hagrees : store.Agrees name descriptions) :
    store.IsWithinLimits path name := by
  obtain ⟨text, members, hfile, hparse, hmember⟩ := hdescribes
  obtain ⟨schemas, hsound, heq⟩ := horderly.metadata name _ hfile
  cases heq
  have hcounted := hsound.counted_of_parse hparse
  refine ⟨(horderly.usable name _ _ hfile).2, fun text htext => ?_, fun others hothers table htable => ?_⟩
  · rw [hfile] at htext
    cases htext
    exact hsound.getLast?_metadataText.2 hcounted
  · have hsame : others = descriptions := by
      rw [(describes_iff hsound hcounted hfile).1 hothers,
        (describes_iff hsound hcounted hfile).1 ⟨_, _, hfile, hparse, hmember⟩]
    subst hsame
    obtain ⟨description, hdescription, rfl⟩ := List.mem_map.1 htable
    obtain ⟨fields, names, rest, _, _, hrow⟩ := hagrees.rowFile description hdescription
    exact (horderly.usable name _ _ hrow).2

end Store

/-! ## Memory and files -/

namespace Workspace

/-- The row files of a database in use are those of its registered tables; the file of a
table that is not loaded has the attributes of its schema. -/
structure Mirrors (path name : Text) (workspace : Workspace) : Prop where
  noOther : ∀ file, (workspace.store.get? [name, file]).isSome = true →
    file = Database.metadataName ∨
      ∃ key, (workspace.database.tables.get? key).isSome = true ∧ file = Database.rowFileName key
  rowFile : ∀ key registration, workspace.database.tables.get? key = some registration →
    (fileIn path name (Database.rowFileName key)).IsUsable →
      ∃ text, workspace.store.get? [name, Database.rowFileName key] = some (.file (.text text)) ∧
        (registration.records = none →
          ∃ rest, text = RowFile.renderLine registration.schema.attributes.names ++ rest)

variable {path name : Text} {workspace later : Workspace}

theorem get?_withFile (workspace : Workspace) (name file other text : Text) :
    (workspace.withFile name file text).store.get? [name, other] =
      if file = other then some (.file (.text text)) else workspace.store.get? [name, other] := by
  rw [withFile, SortedMap.get?_insert]
  by_cases hfile : file = other <;> simp [hfile]

/-- A table may be registered whose row file is there, or cannot be. -/
theorem Mirrors.registered (h : Mirrors path name workspace) {key : Text}
    {registration : Registration}
    (hfile : (fileIn path name (Database.rowFileName key)).IsUsable →
      ∃ text, workspace.store.get? [name, Database.rowFileName key] = some (.file (.text text)) ∧
        (registration.records = none →
          ∃ rest, text = RowFile.renderLine registration.schema.attributes.names ++ rest)) :
    Mirrors path name (workspace.registered key registration) where
  noOther file hexists := by
    rcases h.noOther file hexists with hmetadata | ⟨other, hother, heq⟩
    · exact .inl hmetadata
    · refine .inr ⟨other, ?_, heq⟩
      rw [Workspace.registered, OrderedMap.get?_put]
      split
      · rfl
      · exact hother
  rowFile other found hfound husable := by
    obtain ⟨rfl, rfl⟩ | ⟨-, hold⟩ := OrderedMap.get?_put_eq_some_iff.1 hfound
    · exact hfile husable
    · exact h.rowFile other found hold husable

theorem Mirrors.created (h : Mirrors path name workspace) (key : Text) (table : Table)
    (text : Text) :
    Mirrors path name ((workspace.registered key (.ofTable table)).withFile name
      (Database.rowFileName key) text) where
  noOther file hexists := by
    rw [get?_withFile] at hexists
    split at hexists
    · rename_i heq
      exact .inr ⟨key, by simp [withFile, Workspace.registered], heq.symm⟩
    · rcases h.noOther file hexists with hmetadata | ⟨other, hother, heq⟩
      · exact .inl hmetadata
      · refine .inr ⟨other, ?_, heq⟩
        rw [withFile, Workspace.registered, OrderedMap.get?_put]
        split
        · rfl
        · exact hother
  rowFile other found hfound husable := by
    rw [get?_withFile]
    obtain ⟨rfl, rfl⟩ | ⟨hne, hold⟩ := OrderedMap.get?_put_eq_some_iff.1 hfound
    · exact ⟨text, if_pos rfl, fun hnone => by cases hnone⟩
    · rw [if_neg fun heq => hne (rowFileName_inj heq)]
      exact h.rowFile other found hold husable

theorem Mirrors.dropped (h : Mirrors path name workspace) (key : Text) :
    Mirrors path name
      ((workspace.unregistered key).withoutFile name (Database.rowFileName key)) where
  noOther file hexists := by
    rw [withoutFile, SortedMap.get?_erase] at hexists
    split at hexists
    · cases hexists
    · rename_i hne
      rcases h.noOther file hexists with hmetadata | ⟨other, hother, heq⟩
      · exact .inl hmetadata
      · refine .inr ⟨other, ?_, heq⟩
        rw [withoutFile, unregistered, OrderedMap.get?_erase, if_neg]
        · exact hother
        · rintro rfl
          exact hne (by rw [heq])
  rowFile other found hfound husable := by
    obtain ⟨hne, hold⟩ := OrderedMap.get?_erase_eq_some_iff.1 hfound
    rw [withoutFile, SortedMap.get?_erase, if_neg]
    · exact h.rowFile other found hold husable
    · simpa using fun heq => hne (rowFileName_inj heq)

theorem Mirrors.missing (h : Mirrors path name workspace) {key : Text}
    (hmissing : workspace.store.get? [name, Database.rowFileName key] = none) :
    Mirrors path name (workspace.unregistered key) where
  noOther file hexists := by
    rcases h.noOther file hexists with hmetadata | ⟨other, hother, heq⟩
    · exact .inl hmetadata
    · refine .inr ⟨other, ?_, heq⟩
      rw [unregistered, OrderedMap.get?_erase, if_neg]
      · exact hother
      · rintro rfl
        rw [heq] at hexists
        change (workspace.store.get? _).isSome = true at hexists
        rw [hmissing] at hexists
        cases hexists
  rowFile other found hfound husable := by
    exact h.rowFile other found (OrderedMap.get?_erase_eq_some_iff.1 hfound).2 husable

theorem Step.mirrors (hstep : Step path name workspace later) (h : Mirrors path name workspace) :
    Mirrors path name later := by
  cases hstep with
  | held _ hregistered =>
      refine h.registered fun husable => ?_
      obtain ⟨old, hold⟩ := Option.isSome_iff_exists.1 hregistered
      obtain ⟨text, htext, _⟩ := h.rowFile _ old hold husable
      exact ⟨text, htext, fun hnone => by cases hnone⟩
  | created _ _ _ => exact h.created _ _ _
  | unwritten _ _ hunusable => exact h.registered fun husable => absurd husable hunusable
  | dropped _ => exact h.dropped _
  | missing _ hmissing => exact h.missing hmissing

theorem Steps.mirrors (hsteps : Steps path name workspace later) (h : Mirrors path name workspace) :
    Mirrors path name later := by
  induction hsteps with
  | refl => exact h
  | tail _ hstep ih => exact hstep.mirrors ih

/-! ## Other directories -/

def KeepsOthers (name : Text) (store later : Store) : Prop :=
  ∀ key, (∀ file, key ≠ [name, file]) → later.get? key = store.get? key

theorem Step.keepsOthers (hstep : Step path name workspace later) :
    KeepsOthers name workspace.store later.store := by
  intro key hkey
  cases hstep with
  | held _ _ => rfl
  | created _ _ _ => exact (SortedMap.get?_insert ..).trans (if_neg (Ne.symm (hkey _)))
  | unwritten _ _ _ => rfl
  | dropped _ => exact (SortedMap.get?_erase ..).trans (if_neg (Ne.symm (hkey _)))
  | missing _ _ => rfl

theorem Steps.keepsOthers (hsteps : Steps path name workspace later) :
    KeepsOthers name workspace.store later.store := by
  induction hsteps with
  | refl => exact fun key _ => rfl
  | tail _ hstep ih => exact fun key hkey => (hstep.keepsOthers key hkey).trans (ih key hkey)

/-! ## Saved files -/

theorem withRows_database (workspace : Workspace) (name : Text) (tables : List (Text × Table)) :
    (workspace.withRows name tables).database = workspace.database := by
  induction tables generalizing workspace with
  | nil => rfl
  | cons entry rest ih => exact ih _

theorem get?_withRows_of_ne {tables : List (Text × Table)} {key : Key}
    (h : ∀ entry ∈ tables, key ≠ [name, Database.rowFileName entry.1]) :
    (workspace.withRows name tables).store.get? key = workspace.store.get? key := by
  induction tables generalizing workspace with
  | nil => rfl
  | cons entry rest ih =>
      obtain ⟨hfirst, hrest⟩ := List.forall_mem_cons.1 h
      rw [withRows, List.foldl_cons]
      refine (ih hrest).trans ?_
      rw [withFile, SortedMap.get?_insert, if_neg (Ne.symm hfirst)]

theorem get?_withRows_of_mem {tables : List (Text × Table)} (hdistinct : (Assoc.keys tables).Nodup)
    {key : Text} {table : Table} (hmem : (key, table) ∈ tables) :
    (workspace.withRows name tables).store.get? [name, Database.rowFileName key] =
      some (.file (.text (rowText table))) := by
  induction tables generalizing workspace with
  | nil => cases hmem
  | cons entry rest ih =>
      obtain ⟨hfirst, hrest⟩ := List.nodup_cons.1 hdistinct
      rw [withRows, List.foldl_cons]
      rcases List.mem_cons.1 hmem with rfl | hmem
      · have hother : ∀ other ∈ rest,
            [name, Database.rowFileName key] ≠ [name, Database.rowFileName other.1] := by
          intro other hother heq
          have hkey : key = other.1 := rowFileName_inj (by simpa using heq)
          exact hfirst (List.mem_map.2 ⟨other, hother, hkey.symm⟩)
        refine (get?_withRows_of_ne hother).trans ?_
        rw [get?_withFile, if_pos rfl]
      · exact ih hrest hmem

theorem nodup_loadedTables (database : Database) : (Assoc.keys database.loadedTables).Nodup := by
  have hsublist : (Assoc.keys database.loadedTables).Sublist
      (Assoc.keys database.tables.entries) := by
    rw [Database.loadedTables, Assoc.keys, Assoc.keys]
    induction database.tables.entries with
    | nil => exact List.Sublist.refl _
    | cons entry rest ih =>
        rw [List.filterMap_cons]
        cases entry.2.table? with
        | none => exact ih.cons _
        | some table => exact ih.cons_cons _
  exact database.tables.distinct.sublist hsublist

theorem get?_saved_metadata (workspace : Workspace) (name : Text) (tables : List (Text × Table)) :
    ((workspace.withMetadata name).withRows name tables).store.get?
        [name, Database.metadataName] =
      some (.file (.text (metadataText workspace.database.schemas))) := by
  rw [get?_withRows_of_ne, withMetadata, get?_withFile, if_pos rfl]
  intro entry _ heq
  exact rowFileName_ne_metadataName entry.1 (by simpa using heq.symm)

theorem Saves.database_eq (h : Saves path name workspace later) :
    later.database = workspace.database := by
  rw [h.eq, withRows_database]
  rfl

theorem Saves.metadata (h : Saves path name workspace later) :
    later.store.get? [name, Database.metadataName] =
      some (.file (.text (metadataText workspace.database.schemas))) := by
  rw [h.eq]
  exact get?_saved_metadata workspace name _

theorem Saves.rowFile (h : Saves path name workspace later) {key : Text} {table : Table}
    (hmem : (key, table) ∈ workspace.database.loadedTables) :
    later.store.get? [name, Database.rowFileName key] = some (.file (.text (rowText table))) := by
  rw [h.eq]
  exact get?_withRows_of_mem (nodup_loadedTables _) hmem

theorem Saves.get?_other (h : Saves path name workspace later) {key : Key}
    (hmetadata : key ≠ [name, Database.metadataName])
    (hrows : ∀ entry ∈ workspace.database.loadedTables,
      key ≠ [name, Database.rowFileName entry.1]) :
    later.store.get? key = workspace.store.get? key := by
  rw [h.eq, get?_withRows_of_ne hrows, withMetadata, withFile, SortedMap.get?_insert,
    if_neg (Ne.symm hmetadata)]

theorem Saves.keepsOthers (h : Saves path name workspace later) :
    KeepsOthers name workspace.store later.store := fun _ hkey =>
  h.get?_other (hkey _) fun _ _ => hkey _

theorem mem_keys_schemas {database : Database} {key : Text} :
    key ∈ Assoc.keys database.schemas ↔ (database.tables.get? key).isSome = true := by
  rw [Database.schemas, Assoc.keys_map Registration.schema]
  exact Assoc.isSome_get?_iff.symm

theorem Saves.holds (h : Saves path name workspace later) (hsound : workspace.IsSound path name)
    (hmirrors : Mirrors path name workspace)
    (husable : ∀ key, (workspace.database.tables.get? key).isSome = true →
      (fileIn path name (Database.rowFileName key)).IsUsable) :
    later.store.Holds name workspace.database.schemas where
  sound := hsound.soundSchemas
  counted := h.counted
  metadata := h.metadata
  rowFile entry hentry := by
    obtain ⟨⟨key, registration⟩, hmem, rfl⟩ := List.mem_map.1 hentry
    have hget := OrderedMap.get?_eq_some_iff.2 hmem
    cases hrecords : registration.records with
    | some records =>
        have hloaded : (key, (⟨registration.schema, records⟩ : Table)) ∈
            workspace.database.loadedTables := by
          rw [mem_loadedTables, hget, Registration.ofTable, ← hrecords]
        exact ⟨_, h.rowFile hloaded⟩
    | none =>
        obtain ⟨text, htext, hheader⟩ := hmirrors.rowFile key registration hget
          (husable key (by rw [hget]; rfl))
        obtain ⟨rest, rfl⟩ := hheader hrecords
        refine ⟨rest, (h.get?_other (by simpa using rowFileName_ne_metadataName key) ?_).trans htext⟩
        rintro ⟨other, table⟩ hloaded heq
        have hkey : key = other := rowFileName_inj (by simpa using heq)
        rw [mem_loadedTables, ← hkey, hget] at hloaded
        cases hloaded
        cases hrecords
  noOther file hexists := by
    by_cases hmetadata : file = Database.metadataName
    · exact .inl hmetadata
    · refine .inr ?_
      by_cases hrow : ∃ entry ∈ workspace.database.loadedTables,
          file = Database.rowFileName entry.1
      · obtain ⟨⟨key, table⟩, hloaded, rfl⟩ := hrow
        refine ⟨key, mem_keys_schemas.2 ?_, rfl⟩
        rw [mem_loadedTables.1 hloaded]
        rfl
      · rw [h.get?_other (by simpa using hmetadata)
          fun entry hentry heq => hrow ⟨entry, hentry, by simpa using heq⟩] at hexists
        obtain ⟨key, hkey, heq⟩ := (hmirrors.noOther file hexists).resolve_left hmetadata
        exact ⟨key, mem_keys_schemas.2 hkey, heq⟩

theorem mirrors_of_holds {database : Database} {store : Store} {schemas : List (Text × Schema)}
    (h : store.Holds name schemas) (hschemas : database.schemas = schemas) :
    Mirrors path name ⟨database, store⟩ where
  noOther file hexists := by
    rcases h.noOther file hexists with hmetadata | ⟨key, hkey, heq⟩
    · exact .inl hmetadata
    · refine .inr ⟨key, ?_, heq⟩
      rw [← hschemas] at hkey
      exact mem_keys_schemas.1 hkey
  rowFile key registration hregistration _ := by
    have hmem : (key, registration.schema) ∈ schemas := by
      rw [← hschemas]
      exact List.mem_map.2 ⟨_, OrderedMap.get?_eq_some_iff.1 hregistration, rfl⟩
    obtain ⟨rest, hrest⟩ := h.rowFile _ hmem
    exact ⟨_, hrest, fun _ => ⟨rest, rfl⟩⟩

theorem not_isWithinLimits {store : Store} {database : Database}
    (hsound : SoundSchemas database.schemas)
    (htext : store.get? [name, Database.metadataName] =
      some (.file (.text (metadataText database.schemas))))
    (hunusable : AllCounted database.schemas → ∃ key, (database.tables.get? key).isSome = true ∧
      ¬ (fileIn path name (Database.rowFileName key)).IsUsable) :
    ¬ store.IsWithinLimits path name := by
  intro hlimits
  have hcounted := hsound.getLast?_metadataText.1 (hlimits.whole _ htext)
  obtain ⟨key, hkey, hunusable⟩ := hunusable hcounted
  refine hunusable (hlimits.tables _ ((Store.describes_iff hsound hcounted htext).2 rfl) key ?_)
  rw [Assoc.keys_map Schema.toJson]
  exact mem_keys_schemas.2 hkey

end Workspace

/-! ## Steps of a session -/

namespace Session

open Workspace (Mirrors KeepsOthers)

/-- In every directory the files are those of some schemas, and memory mirrors the files of
the database in use. -/
structure IsSettled (path : Text) (session : Session) : Prop where
  holds : ∀ name, session.store.get? [name] = some .directory →
    ∃ schemas, session.store.Holds name schemas
  mirrors : ∀ name database, session.current = some (name, database) →
    Mirrors path name ⟨database, session.store⟩

def Exceeds (path : Text) (store : Store) : Prop :=
  ∃ name, store.get? [name] = some .directory ∧ ¬ store.IsWithinLimits path name

variable {path name : Text} {session later : Session}

theorem holds_of_keeps {store later : Store} {other : Text} {schemas : List (Text × Schema)}
    (h : store.Holds other schemas)
    (hkeeps : ∀ file, later.get? [other, file] = store.get? [other, file]) :
    later.Holds other schemas where
  sound := h.sound
  counted := h.counted
  metadata := (hkeeps _).trans h.metadata
  rowFile entry hentry := by
    obtain ⟨rest, hrest⟩ := h.rowFile entry hentry
    exact ⟨rest, (hkeeps _).trans hrest⟩
  noOther file hexists := h.noOther file (hkeeps file ▸ hexists)

theorem mirrors_of_keeps {store later : Store} {database : Database}
    (h : Mirrors path name ⟨database, store⟩)
    (hkeeps : ∀ file, later.get? [name, file] = store.get? [name, file]) :
    Mirrors path name ⟨database, later⟩ where
  noOther file hexists := h.noOther file (hkeeps file ▸ hexists)
  rowFile key registration hregistration husable := by
    obtain ⟨text, htext, hheader⟩ := h.rowFile key registration hregistration husable
    exact ⟨text, (hkeeps _).trans htext, hheader⟩

theorem settled_saves (h : session.IsSound path) (hsettled : session.IsSettled path)
    {database : Database} {workspace last : Workspace}
    (hcurrent : session.current = some (name, database))
    (hsteps : Workspace.Steps path name ⟨database, session.store⟩ workspace)
    (hsaves : Workspace.Saves path name workspace last) :
    (session.entered name last).IsSettled path ∨ Exceeds path last.store := by
  have hworkspace := hsteps.isSound (h.current name database hcurrent)
  have hmirrors := hsteps.mirrors (hsettled.mirrors name database hcurrent)
  have hkeeps (key : Key) (hkey : ∀ file, key ≠ [name, file]) :
      last.store.get? key = session.store.get? key :=
    (hsaves.keepsOthers key hkey).trans (hsteps.keepsOthers key hkey)
  by_cases husable : ∀ key, (workspace.database.tables.get? key).isSome = true →
      (fileIn path name (Database.rowFileName key)).IsUsable
  · refine .inl ⟨fun other hother => ?_, fun other found hfound => ?_⟩
    · have hholds := hsaves.holds hworkspace hmirrors husable
      by_cases hname : other = name
      · exact ⟨_, hname ▸ hholds⟩
      · obtain ⟨schemas, hschemas⟩ :=
          hsettled.holds other ((hkeeps [other] (by simp)).symm.trans hother)
        exact ⟨schemas, holds_of_keeps hschemas fun file => hkeeps _ (by simp [hname])⟩
    · cases hfound
      exact Workspace.mirrors_of_holds (hsaves.holds hworkspace hmirrors husable)
        (by rw [hsaves.database_eq])
  · simp only [not_forall, exists_prop] at husable
    refine .inr ⟨name, (hsaves.isSound hworkspace).parent, ?_⟩
    exact Workspace.not_isWithinLimits hworkspace.soundSchemas hsaves.metadata fun _ => husable

theorem Stalls.exceeds (hstalls : Stalls path session later) (h : session.IsSound path) :
    Exceeds path later.store := by
  cases hstalls with
  | intro hcurrent hsteps hsaves =>
      rename_i name database workspace last
      have hworkspace := hsteps.isSound (h.current name database hcurrent)
      refine ⟨name, (hsaves.isSound hworkspace).parent, ?_⟩
      obtain ⟨written, _, rfl⟩ := hsaves.written
      refine Workspace.not_isWithinLimits hworkspace.soundSchemas
        (Workspace.get?_saved_metadata workspace name written) fun hcounted => ?_
      obtain ⟨⟨key, table⟩, hloaded, hunusable⟩ := hsaves.unusable hcounted
      exact ⟨key, by rw [Workspace.mem_loadedTables.1 hloaded]; rfl, hunusable⟩

theorem Leaves.settled {store : Store} (hleaves : Leaves path session store)
    (h : session.IsSound path) (hsettled : session.IsSettled path) :
    (session.left store).IsSettled path ∨ Exceeds path store := by
  cases hleaves with
  | idle _ => exact .inl ⟨hsettled.holds, fun _ _ hcurrent => by cases hcurrent⟩
  | saved hcurrent hsaves =>
      exact (settled_saves h hsettled hcurrent .refl hsaves).imp_left fun hsaved =>
        ⟨hsaved.holds, fun _ _ hcurrent => by cases hcurrent⟩

theorem IsSettled.opened {store : Store}
    {schemas : List (Text × Schema)} (horderly : store.IsOrderly path)
    (hsettled : (session.left store).IsSettled path) (hsound : SoundSchemas schemas)
    (hcounted : AllCounted schemas)
    (htext : store.get? [name, Database.metadataName] =
      some (.file (.text (metadataText schemas)))) :
    (session.opened store name schemas).IsSettled path where
  holds := hsettled.holds
  mirrors other found hfound := by
    cases hfound
    obtain ⟨others, hothers⟩ := hsettled.holds name (horderly.parent name _ _ htext)
    have hsame : metadataText schemas = metadataText others := by
      simpa using htext.symm.trans hothers.metadata
    have heq := hsound.eq_of_metadataText_eq hothers.sound hcounted hsame
    subst heq
    exact Workspace.mirrors_of_holds hothers (Database.schemas_ofSchemas _ hsound.distinct)

theorem IsSettled.created (h : session.IsSound path) (hsettled : session.IsSettled path)
    (hnew : session.store.get? [name, Database.metadataName] = none) {store : Store}
    (hhas : HasDirectory session.store name store) :
    IsSettled path { session with
      store := store.insert [name, Database.metadataName] (.file (.text (metadataText []))) } := by
  cases hhas with
  | found hentry =>
      obtain ⟨schemas, hholds⟩ := hsettled.holds name hentry
      rw [hholds.metadata] at hnew
      cases hnew
  | made hentry =>
      have hempty (file : Text) : session.store.get? [name, file] = none := by
        cases hfile : session.store.get? [name, file] with
        | none => rfl
        | some entry =>
            rw [h.store.parent name file entry hfile] at hentry
            cases hentry
      have hkeeps {other : Text} (hother : other ≠ name) (file : Text) :
          ((session.store.insert [name] .directory).insert [name, Database.metadataName]
            (.file (.text (metadataText [])))).get? [other, file] =
              session.store.get? [other, file] := by
        simp [Ne.symm hother]
      refine ⟨fun other hother => ?_, fun other database hcurrent => ?_⟩
      · by_cases hname : other = name
        · subst hname
          refine ⟨[], soundSchemas_nil, fun _ hmem => absurd hmem List.not_mem_nil, by simp,
            fun _ hmem => absurd hmem List.not_mem_nil, fun file hexists => .inl ?_⟩
          by_contra hfile
          simp [hempty, Ne.symm hfile] at hexists
        · have hold : session.store.get? [other] = some .directory := by
            simpa [Ne.symm hname] using hother
          obtain ⟨schemas, hholds⟩ := hsettled.holds other hold
          exact ⟨schemas, holds_of_keeps hholds (hkeeps hname)⟩
      · have hname : other ≠ name := by
          rintro rfl
          have hparent := (h.current other database hcurrent).parent
          rw [hentry] at hparent
          cases hparent
        exact mirrors_of_keeps (hsettled.mirrors other database hcurrent) (hkeeps hname)

theorem IsSettled.deleted (hsettled : session.IsSettled path) (name : Text) :
    (session.without name).IsSettled path := by
  have hkeeps {other : Text} (hother : other ≠ name) (file : Text) :
      (session.without name).store.get? [other, file] = session.store.get? [other, file] := by
    rw [get?_without, if_neg (by simp [Ne.symm hother])]
  refine ⟨fun other hother => ?_, fun other database hcurrent => ?_⟩
  · rw [get?_without] at hother
    split at hother
    · cases hother
    · rename_i hprefix
      have hname : other ≠ name := by
        rintro rfl
        simp at hprefix
      obtain ⟨schemas, hholds⟩ := hsettled.holds other hother
      exact ⟨schemas, holds_of_keeps hholds (hkeeps hname)⟩
  · obtain ⟨hcurrent, hname⟩ := current_without hcurrent
    exact mirrors_of_keeps (hsettled.mirrors other database hcurrent) (hkeeps hname)

theorem Step.settled (hstep : Step path session later) (h : session.IsSound path)
    (hsettled : session.IsSettled path) : later.IsSettled path ∨ Exceeds path later.store := by
  cases hstep with
  | works hworks =>
      cases hworks with
      | idle => exact .inl hsettled
      | steps hcurrent hsteps hstore =>
          refine .inl ⟨fun other hother => ?_, fun other found hfound => ?_⟩
          · rw [entered, hstore] at hother ⊢
            exact hsettled.holds other hother
          · cases hfound
            exact hsteps.mirrors (hsettled.mirrors _ _ hcurrent)
  | commits hcommits =>
      cases hcommits with
      | intro hcurrent hsteps hsaves => exact settled_saves h hsettled hcurrent hsteps hsaves
  | stalls hstalls => exact .inr (hstalls.exceeds h)
  | left hleaves => exact hleaves.settled h hsettled
  | opened hname hleaves hsound hcounted htext =>
      exact (hleaves.settled h hsettled).imp_left fun hleft =>
        hleft.opened (hleaves.isOrderly h) hsound hcounted htext
  | created _ hnew _ hhas => exact .inl (hsettled.created h hnew hhas)
  | unfinished _ hunusable hhas =>
      exact .inr ⟨_, hhas.get?, fun hlimits => hunusable hlimits.metadata⟩
  | deleted _ => exact .inl (hsettled.deleted _)

/-! ## Runs -/

theorem isSettled_start (path : Text) : (start path Store.emptyRoot).IsSettled path where
  holds name hname := by
    rw [start, Store.emptyRoot, SortedMap.get?_insert, if_neg (by simp)] at hname
    cases hname
  mirrors name database hcurrent := by cases hcurrent

theorem IsSettled.isConsistent (hsettled : session.IsSettled path) (h : session.IsSound path) :
    session.store.IsConsistent := by
  intro name hname
  obtain ⟨schemas, hholds⟩ := hsettled.holds name hname
  exact ⟨_, (Store.describes_iff hholds.sound hholds.counted hholds.metadata).2 rfl,
    hholds.agrees h.store⟩

theorem settled_react (h : session.IsSound path) (hsettled : session.IsSettled path)
    (event : Event) :
    (session.react event).IsSettled path ∨ Exceeds path (session.react event).store := by
  cases event with
  | query text =>
      exact ((ensures_executeText h text).mono (fun _ _ hstep => hstep.settled h hsettled)
        fun _ _ hstep => hstep.settled h hsettled).finally
  | reopening => exact .inl ⟨hsettled.holds, fun _ _ hcurrent => by cases hcurrent⟩

theorem after_append (path : Text) (events : List Event) (event : Event) :
    after path (events ++ [event]) = (after path events).react event := by
  rw [after, List.foldl_append]
  rfl

theorem settled_after (path : Text) (events : List Event)
    (hlimits : ∀ front, front <+: events → ¬ Exceeds path (after path front).store) :
    (after path events).IsSettled path := by
  induction events using List.reverseRecOn with
  | nil => exact isSettled_start path
  | append_singleton events event ih =>
      have hsettled := ih fun front hfront => hlimits front (hfront.trans (List.prefix_append _ _))
      have hnow := hlimits _ List.prefix_rfl
      rw [after_append] at hnow ⊢
      exact (settled_react (isSound_after path events) hsettled event).resolve_right hnow

def IsSaved (session : Session) : Prop :=
  ∃ name database, session.current = some (name, database) ∧
    session.store.get? [name, Database.metadataName] =
      some (.file (.text database.metadata.render)) ∧
    ∀ key table, (key, table) ∈ database.loadedTables →
      session.store.get? [name, Database.rowFileName key] =
        some (.file (.text (RowFile.ofTable table).render))

theorem Commits.isSaved (hcommits : Commits path session later) (h : session.IsSound path) :
    later.IsSaved := by
  cases hcommits with
  | intro hcurrent hsteps hsaves =>
      rename_i name database workspace last
      have hworkspace := hsteps.isSound (h.current name database hcurrent)
      refine ⟨name, last.database, rfl, ?_, fun key table hloaded => ?_⟩
      · rw [hsaves.database_eq, Database.metadata_eq,
          ← hworkspace.soundSchemas.metadataText_of_counted hsaves.counted]
        exact hsaves.metadata
      · rw [hsaves.database_eq] at hloaded
        exact hsaves.rowFile hloaded

/-- The files of all databases agree throughout a run exactly as long as all directories
stay within the limits; and a change that succeeds leaves the files as memory is. -/
theorem isConsistent_iff_isWithinLimits (path : Text) (events : List Event) :
    ((∀ front, front <+: events → (after path front).store.IsConsistent) ↔
      ∀ front, front <+: events → ∀ name,
        (after path front).store.get? [name] = some .directory →
          (after path front).store.IsWithinLimits path name) ∧
    ∀ text command result, Command.ofText text = .ok command → command.IsChange →
      ((executeText text).runOn (after path events)).1 = .ok result →
        (after path (events ++ [.query text])).IsSaved := by
  refine ⟨⟨fun hconsistent front hfront name hname => ?_, fun hlimits front hfront => ?_⟩,
    fun text command result hcommand hchange hresult => ?_⟩
  · obtain ⟨descriptions, hdescribes, hagrees⟩ := hconsistent front hfront name hname
    exact Store.isWithinLimits_of_agrees (isSound_after path front).store hdescribes hagrees
  · refine (settled_after path front fun earlier hearlier => ?_).isConsistent (isSound_after path front)
    rintro ⟨name, hname, hexceeds⟩
    exact hexceeds (hlimits earlier (hearlier.trans hfront) name hname)
  · have hsound := isSound_after path events
    have hexecute := ensures_execute_change hsound (Spelling.printable_of_ofText hcommand) hchange
    simp only [executeText, hcommand] at hresult
    have hcommits := hexecute.of_ok (Prod.ext hresult rfl)
    rw [after_append, react, executeText, hcommand]
    exact hcommits.isSaved hsound

def firstTable : List Event :=
  [.query "CREATE DATABASE d;".toList, .query "USE d;".toList,
    .query "CREATE TABLE t (a);".toList]

theorem isSaved_firstRecord :
    (after "r".toList (firstTable ++ [.query "INSERT INTO t VALUES ('x');".toList])).IsSaved := by
  have hok : ((executeText "INSERT INTO t VALUES ('x');".toList).runOn
      (after "r".toList firstTable)).1.isOk = true := by decide +kernel
  obtain ⟨result, hresult⟩ := exists_of_isOk hok
  exact (isConsistent_iff_isWithinLimits "r".toList firstTable).2 "INSERT INTO t VALUES ('x');".toList
    (.insert ['t'] [['x']]) result (by decide +kernel) trivial hresult

def overlongName : Text :=
  List.replicate 252 't'

/-- A table is created under a name that is too long for its row file, and the database is
saved when it is left. -/
def overlongTable : List Event :=
  [.query "CREATE DATABASE d;".toList, .query "USE d;".toList,
    .query ("CREATE TABLE ".toList ++ overlongName ++ " (a);".toList),
    .query "USE d;".toList]

theorem not_isConsistent_of_listed (h : session.IsSound path) {database : Database} {key : Text}
    (hcurrent : session.current = some (name, database))
    (hregistered : (database.tables.get? key).isSome = true)
    (hmetadata : session.store.get? [name, Database.metadataName] =
      some (.file (.text (metadataText database.schemas))))
    (hstep : IsStep (Database.rowFileName key))
    (hsize : Store.nameLimit < Store.byteSize (Database.rowFileName key)) :
    ¬ session.store.IsConsistent := by
  intro hconsistent
  have hworkspace := h.current name database hcurrent
  obtain ⟨descriptions, hdescribes, hagrees⟩ := hconsistent name hworkspace.parent
  refine Workspace.not_isWithinLimits hworkspace.soundSchemas hmetadata
    (fun _ => ⟨key, hregistered, fun husable => ?_⟩)
    (Store.isWithinLimits_of_agrees h.store hdescribes hagrees)
  exact absurd ((Place.isUsable_file hworkspace.identifier.isStep hstep).1 husable).2.2.2
    (Nat.not_le.2 hsize)

theorem overlongTable_not_isConsistent :
    ¬ (after "r".toList overlongTable).store.IsConsistent := by
  have hlisted : ((after "r".toList overlongTable).current.any fun current =>
      (current.2.tables.get? overlongName).isSome &&
        (after "r".toList overlongTable).store.get? [current.1, Database.metadataName] ==
          some (.file (.text (metadataText current.2.schemas)))) = true := by decide +kernel
  have hstep : IsStep (Database.rowFileName overlongName) := by
    constructor <;> decide +kernel
  obtain ⟨⟨name, database⟩, hcurrent, hboth⟩ := (Option.any_eq_true _ _).1 hlisted
  simp only [Bool.and_eq_true, beq_iff_eq] at hboth
  exact not_isConsistent_of_listed (isSound_after _ _) hcurrent hboth.1 hboth.2 hstep
    (by decide +kernel)

end Session

end Relbase
