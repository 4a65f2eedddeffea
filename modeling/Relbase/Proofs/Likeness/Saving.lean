import Relbase.Proofs.Likeness.Stores
import Relbase.Proofs.Saving

/-!
# Databases in use that are alike

Two workspaces are alike if their stores are, if the same schemas are registered, and if the
same is found for every name, whether in memory or in a file.  Saving keeps them alike: what
it writes of a table that is loaded in only one of them is read back as what the other finds in
its file.  Tables that saving does not get to must have the same row files.
-/

namespace Relbase

open Relbase.Action

namespace Workspace

variable {path name : Text} {workspace first second : Workspace}

structure Alike (path name : Text) (first second : Workspace) : Prop where
  stores : first.store.Alike path second.store
  schemas : first.database.schemas = second.database.schemas
  tables : ∀ spelled, first.tableOf spelled = second.tableOf spelled
  behind : ∀ key ∈ Assoc.keys first.database.schemas, key ∉ first.ahead path name →
    first.store.get? [name, Database.rowFileName key] =
      second.store.get? [name, Database.rowFileName key]

theorem ahead_congr (hschemas : first.database.schemas = second.database.schemas)
    (htables : ∀ spelled, first.tableOf spelled = second.tableOf spelled) :
    first.ahead path name = second.ahead path name := by
  rw [ahead, ahead, hschemas]
  congr 1
  funext key
  exact decide_eq_decide.2 (by simp only [Blocks, htables])

/-! ## What saving leaves -/

def saving (workspace : Workspace) (name : Text) (rows : List (Text × Table)) : Workspace :=
  (workspace.withMetadata name).withRows name rows

theorem isSound_saving (h : workspace.IsSound path name) {rows : List (Text × Table)}
    (hrows : ∀ entry ∈ rows, entry ∈ workspace.written path name) :
    (workspace.saving name rows).IsSound path name :=
  h.saved fun entry hentry => ⟨(List.takeWhile_prefix _).mem (hrows entry hentry),
    by simpa using List.mem_takeWhile_imp (hrows entry hentry)⟩

theorem database_saving (workspace : Workspace) (name : Text) (rows : List (Text × Table)) :
    (workspace.saving name rows).database = workspace.database :=
  withRows_database _ name rows

theorem get?_saving_of_ne {rows : List (Text × Table)} {key : Key}
    (hmetadata : key ≠ [name, Database.metadataName])
    (hrows : ∀ entry ∈ rows, key ≠ [name, Database.rowFileName entry.1]) :
    (workspace.saving name rows).store.get? key = workspace.store.get? key := by
  rw [saving, get?_withRows_of_ne hrows, withMetadata, withFile, SortedMap.get?_insert,
    if_neg (Ne.symm hmetadata)]

theorem get?_saving_rowFile {rows : List (Text × Table)} {key : Text}
    (hkey : ∀ table, (key, table) ∉ rows) :
    (workspace.saving name rows).store.get? [name, Database.rowFileName key] =
      workspace.store.get? [name, Database.rowFileName key] := by
  refine get?_saving_of_ne (by simpa using rowFileName_ne_metadataName key) ?_
  rintro ⟨other, table⟩ hentry heq
  have hother : key = other := rowFileName_inj (by simpa using heq)
  exact hkey table (hother ▸ hentry)

theorem keepsOthers_saving (workspace : Workspace) (name : Text) (rows : List (Text × Table)) :
    KeepsOthers name workspace.store (workspace.saving name rows).store :=
  fun _ hkey => get?_saving_of_ne (hkey _) fun _ _ => hkey _

theorem not_mem_written {key : Text} {found : Registration}
    (hfound : workspace.database.tables.get? key = some found) (hnone : found.table? = none)
    (table : Table) : (key, table) ∉ workspace.written path name := by
  intro hmem
  have hloaded := mem_loadedTables.1 ((List.takeWhile_prefix _).mem hmem)
  rw [hfound] at hloaded
  cases hloaded
  cases hnone

theorem tableOf_saving (h : workspace.IsSound path name) {rows : List (Text × Table)}
    (hrows : ∀ entry ∈ rows, entry ∈ workspace.written path name) (spelled : Text) :
    (workspace.saving name rows).tableOf spelled = workspace.tableOf spelled := by
  have hlater := isSound_saving h hrows
  rw [tableOf, tableOf, hlater.rowFilePlace_eq, h.rowFilePlace_eq, database_saving]
  cases hfound : workspace.database.tables.get? spelled.lower with
  | none => rfl
  | some found =>
      cases htable : found.table? with
      | some table => simp only [htable]
      | none =>
          simp only [htable]
          exact tableAt_congr (hlater.sameWay h) h.identifier
            (h.tables _ found hfound).schema.key.1
              (get?_saving_rowFile fun table hmem => not_mem_written hfound htable table (hrows _ hmem)) _

theorem Alike.saving (h : Alike path name first second) (hfirst : first.IsSound path name)
    (hsecond : second.IsSound path name) (front back : List (Text × Table))
    (hfront : ∀ entry ∈ front, entry ∈ first.written path name)
    (hback : ∀ entry ∈ back, entry ∈ second.written path name)
    (hexists : ∀ key, ((first.saving name front).store.get? [name, Database.rowFileName key]).isSome =
      ((second.saving name back).store.get? [name, Database.rowFileName key]).isSome)
    (htables : AllCounted first.database.schemas → ∀ table ∈ first.database.schemas,
      tableAt (first.saving name front).store (fileIn path name (Database.rowFileName table.1)) table.2 =
        tableAt (second.saving name back).store (fileIn path name (Database.rowFileName table.1))
          table.2) :
    Alike path name (first.saving name front) (second.saving name back) := by
  have hlater := isSound_saving hfirst hfront
  have hmetadata (workspace : Workspace) (rows : List (Text × Table)) :
      (workspace.saving name rows).store.get? [name, Database.metadataName] =
        some (.file (.text (metadataText workspace.database.schemas))) :=
    get?_saved_metadata workspace name rows
  have htableOf (spelled : Text) : (first.saving name front).tableOf spelled =
      (second.saving name back).tableOf spelled := by
    rw [tableOf_saving hfirst hfront, tableOf_saving hsecond hback, h.tables]
  refine ⟨h.stores.within hlater.store (keepsOthers_saving _ _ _) (keepsOthers_saving _ _ _)
    (fun file => ?_) ?_ fun schemas hsound hcounted htext table htable => ?_, ?_, htableOf, ?_⟩
  · by_cases hfile : ∃ key, file = Database.rowFileName key
    · obtain ⟨key, rfl⟩ := hfile
      exact hexists key
    · by_cases heq : file = Database.metadataName
      · rw [heq, hmetadata, hmetadata]
        rfl
      · have hrows (rows : List (Text × Table)) :
            ∀ entry ∈ rows, [name, file] ≠ [name, Database.rowFileName entry.1] :=
          fun entry _ hkey => hfile ⟨entry.1, by simpa using hkey⟩
        rw [get?_saving_of_ne (by simpa using heq) (hrows _),
          get?_saving_of_ne (by simpa using heq) (hrows _)]
        exact h.stores.exists_iff _
  · rw [hmetadata, hmetadata, h.schemas]
  · rw [hmetadata] at htext
    obtain rfl : first.database.schemas = schemas :=
      hsound.eq_of_metadataText_eq hfirst.soundSchemas hcounted (by simpa using htext.symm)
    exact htables hcounted table htable
  · rw [database_saving, database_saving, h.schemas]
  · intro key hkey hbehind
    rw [database_saving] at hkey
    rw [ahead_congr (by rw [database_saving]) (tableOf_saving hfirst hfront)] at hbehind
    have hsame : first.ahead path name = second.ahead path name := ahead_congr h.schemas h.tables
    rw [get?_saving_rowFile fun table hmem => hbehind (hfirst.mem_written_iff.1 (hfront _ hmem)).2,
      get?_saving_rowFile fun table hmem =>
        hbehind (hsame ▸ (hsecond.mem_written_iff.1 (hback _ hmem)).2)]
    exact h.behind key hkey hbehind

/-! ## Row files after saving -/

def saved (path name : Text) (workspace : Workspace) : Workspace :=
  workspace.saving name (workspace.written path name)

theorem isSound_saved (h : workspace.IsSound path name) :
    (workspace.saved path name).IsSound path name :=
  isSound_saving h fun _ hentry => hentry

theorem get?_saved_rowFile (h : workspace.IsSound path name) {key : Text} {table : Table}
    (hloaded : (key, table) ∈ workspace.database.loadedTables)
    (hahead : key ∈ workspace.ahead path name) :
    (workspace.saved path name).store.get? [name, Database.rowFileName key] =
      some (.file (.text (rowText table))) :=
  get?_withRows_of_mem ((nodup_loadedTables workspace.database).sublist
    ((List.takeWhile_prefix _).sublist.map Prod.fst)) (h.mem_written_iff.2 ⟨hloaded, hahead⟩)

theorem get?_saved_of_behind (h : workspace.IsSound path name) {key : Text}
    (hbehind : key ∉ workspace.ahead path name) :
    (workspace.saved path name).store.get? [name, Database.rowFileName key] =
      workspace.store.get? [name, Database.rowFileName key] :=
  get?_saving_rowFile fun _ hmem => hbehind (h.mem_written_iff.1 hmem).2

theorem tableAt_saved_of_unloaded (h : workspace.IsSound path name) {key : Text} {schema : Schema}
    (hmem : (key, ⟨schema, none⟩) ∈ workspace.database.tables.entries) :
    tableAt (workspace.saved path name).store (fileIn path name (Database.rowFileName key)) schema =
      workspace.tableOf key := by
  have hsame : (workspace.saved path name).tableOf key = workspace.tableOf key :=
    tableOf_saving h (fun _ hentry => hentry) key
  rw [← hsame, (isSound_saved h).tableOf_of_mem (by rwa [saved, database_saving])]
  rfl

/-- The row files of a table in two stores are there, or missing, in both, and read alike. -/
structure ReadsAlike (path name key : Text) (schema : Schema) (first second : Store) : Prop where
  exists_iff : (first.get? [name, Database.rowFileName key]).isSome =
    (second.get? [name, Database.rowFileName key]).isSome
  tableAt : tableAt first (fileIn path name (Database.rowFileName key)) schema =
    tableAt second (fileIn path name (Database.rowFileName key)) schema

theorem ReadsAlike.symm {key : Text} {schema : Schema} {first second : Store}
    (h : ReadsAlike path name key schema first second) :
    ReadsAlike path name key schema second first :=
  ⟨h.exists_iff.symm, h.tableAt.symm⟩

theorem readsAlike_of_eq {key : Text} (hfirst : first.IsSound path name)
    (hsecond : second.IsSound path name) (hkey : IsIdentifier key)
    (heq : first.store.get? [name, Database.rowFileName key] =
      second.store.get? [name, Database.rowFileName key]) (schema : Schema) :
    ReadsAlike path name key schema first.store second.store :=
  ⟨by rw [heq], tableAt_congr (hfirst.sameWay hsecond) hfirst.identifier hkey heq schema⟩

theorem Alike.symm (h : Alike path name first second) : Alike path name second first where
  stores := h.stores.symm
  schemas := h.schemas.symm
  tables spelled := (h.tables spelled).symm
  behind key hkey hbehind := by
    rw [← h.schemas] at hkey
    rw [← ahead_congr h.schemas h.tables] at hbehind
    exact (h.behind key hkey hbehind).symm

/-- What is written of a loaded table is read as what another workspace finds. -/
theorem Alike.readsAlike_of_loaded (h : Alike path name first second)
    (hfirst : first.IsSound path name) (hsecond : second.IsSound path name) {key : Text}
    {table : Table} {found : Registration}
    (hloaded : (key, table) ∈ first.database.loadedTables)
    (hfound : (key, found) ∈ second.database.tables.entries) (hschema : found.schema = table.schema) :
    ReadsAlike path name key table.schema (first.saved path name).store
      (second.saved path name).store := by
  have hlater := isSound_saved hfirst
  have hlast := isSound_saved hsecond
  have hkey := hfirst.isIdentifier_loaded _ hloaded
  have htable : second.tableOf key = .ok table := by
    rw [← h.tables, hfirst.tableOf_of_mem (OrderedMap.get?_eq_some_iff.1 (mem_loadedTables.1 hloaded))]
    rfl
  by_cases hahead : key ∈ first.ahead path name
  · have hwritten := get?_saved_rowFile hfirst hloaded hahead
    rw [ahead_congr h.schemas h.tables] at hahead
    rw [hsecond.tableOf_of_mem hfound] at htable
    cases hother : found.table? with
    -- Both have it in memory and write it.
    | some other =>
        rw [hother] at htable
        cases htable
        refine readsAlike_of_eq hlater hlast hkey (hwritten.trans ?_) _
        refine (get?_saved_rowFile hsecond (mem_loadedTables.2 ?_) hahead).symm
        rw [OrderedMap.get?_eq_some_iff.2 hfound, Registration.eq_ofTable hother]
    -- The second leaves its row file, of which the first one writes what was loaded from it.
    | none =>
        obtain ⟨schema, records⟩ := found
        obtain rfl : records = none := Option.map_eq_none_iff.1 hother
        have hsame : second.tableOf key = .ok table := by
          rw [hsecond.tableOf_of_mem hfound]
          exact htable
        have hread := (tableAt_saved_of_unloaded hsecond hfound).trans hsame
        obtain ⟨hsound, hplain⟩ := isSound_of_tableAt
          (hsecond.tables key _ (OrderedMap.get?_eq_some_iff.2 hfound)).schema htable
        constructor
        · rw [hwritten, exists_entry_of_tableAt hsecond.identifier hkey hread]
          rfl
        · rw [tableAt_rowText hlater.store hfirst.identifier hsound hplain hwritten, ← hschema]
          exact hread.symm
  -- Saving does not get to it in either.
  · refine readsAlike_of_eq hlater hlast hkey ?_ _
    have hregistered : key ∈ Assoc.keys first.database.schemas := by
      rw [mem_keys_schemas, mem_loadedTables.1 hloaded]
      rfl
    refine (get?_saved_of_behind hfirst hahead).trans ?_
    refine (h.behind key hregistered hahead).trans (get?_saved_of_behind hsecond ?_).symm
    rwa [← ahead_congr h.schemas h.tables]

theorem Alike.readsAlike_saved (h : Alike path name first second) (hfirst : first.IsSound path name)
    (hsecond : second.IsSound path name) {table : Text × Schema}
    (htable : table ∈ first.database.schemas) :
    ReadsAlike path name table.1 table.2 (first.saved path name).store
      (second.saved path name).store := by
  obtain ⟨⟨key, found⟩, hmem, rfl⟩ := List.mem_map.1 htable
  rw [h.schemas] at htable
  obtain ⟨⟨_, other⟩, hother, heq⟩ := List.mem_map.1 htable
  obtain ⟨rfl, hschema⟩ := Prod.mk.inj heq
  have hget := OrderedMap.get?_eq_some_iff.2 hmem
  have hlast := OrderedMap.get?_eq_some_iff.2 hother
  cases hfound : found.table? with
  | some loaded =>
      obtain rfl := Registration.eq_ofTable hfound
      exact h.readsAlike_of_loaded hfirst hsecond (mem_loadedTables.2 hget) hother hschema
  | none =>
      cases hheld : other.table? with
      | some loaded =>
          obtain rfl := Registration.eq_ofTable hheld
          have halike := h.symm.readsAlike_of_loaded hsecond hfirst (mem_loadedTables.2 hlast) hmem
            hschema.symm
          exact hschema ▸ halike.symm
      | none =>
          have hsame : other.schema = found.schema := hschema
          obtain ⟨schema, records⟩ := found
          obtain ⟨_, others⟩ := other
          obtain rfl : records = none := Option.map_eq_none_iff.1 hfound
          obtain rfl : others = none := Option.map_eq_none_iff.1 hheld
          obtain rfl := hsame
          constructor
          · rw [saved, saved, get?_saving_rowFile (not_mem_written hget rfl),
              get?_saving_rowFile (not_mem_written hlast rfl)]
            exact h.stores.exists_iff _
          · rw [tableAt_saved_of_unloaded hfirst hmem, tableAt_saved_of_unloaded hsecond hother]
            exact h.tables _

/-! ## Saving both -/

theorem Alike.map_fst_find?_loadedTables (h : Alike path name first second)
    (hfirst : first.IsSound path name) (hsecond : second.IsSound path name) :
    (first.database.loadedTables.find? fun entry =>
        ¬ (fileIn path name (Database.rowFileName entry.1)).IsUsable).map Prod.fst =
      (second.database.loadedTables.find? fun entry =>
        ¬ (fileIn path name (Database.rowFileName entry.1)).IsUsable).map Prod.fst := by
  rw [hfirst.find?_loadedTables, hsecond.find?_loadedTables, h.schemas]
  refine List.find?_congr fun key _ => decide_eq_decide.2 ?_
  rw [Blocks, Blocks, h.tables]

theorem Alike.outcome_save (h : Alike path name first second) (hfirst : first.IsSound path name)
    (hsecond : second.IsSound path name) :
    (save.runOn first).1 = (save.runOn second).1 := by
  by_cases hcounted : AllCounted first.database.schemas
  · rw [runOn_save_of_counted hfirst hcounted,
      runOn_save_of_counted hsecond (h.schemas ▸ hcounted)]
    have hblocker := h.map_fst_find?_loadedTables hfirst hsecond
    cases hleft : first.database.loadedTables.find? fun entry =>
        ¬ (fileIn path name (Database.rowFileName entry.1)).IsUsable <;>
      cases hright : second.database.loadedTables.find? fun entry =>
        ¬ (fileIn path name (Database.rowFileName entry.1)).IsUsable <;>
      rw [hleft, hright] at hblocker
    · cases hblocker
    · cases hblocker
    · rename_i entry other
      obtain ⟨key, table⟩ := entry
      obtain ⟨_, found⟩ := other
      obtain rfl := Option.some.inj hblocker
      exact outcome_writeTable_congr hfirst hsecond
        (hfirst.isIdentifier_loaded _ (List.mem_of_find?_eq_some hleft)) table found
  · rw [runOn_save_of_not_counted hfirst hcounted,
      runOn_save_of_not_counted hsecond (h.schemas ▸ hcounted)]

theorem Alike.agree_save (h : Alike path name first second) (hfirst : first.IsSound path name)
    (hsecond : second.IsSound path name) :
    Agree (Alike path name) save save first second := by
  refine ⟨h.outcome_save hfirst hsecond, ?_⟩
  by_cases hcounted : AllCounted first.database.schemas
  · rw [runOn_save_of_counted hfirst hcounted,
      runOn_save_of_counted hsecond (h.schemas ▸ hcounted)]
    refine h.saving hfirst hsecond _ _ (fun _ hentry => hentry) (fun _ hentry => hentry)
      (fun key => ?_) fun _ table htable => (h.readsAlike_saved hfirst hsecond htable).tableAt
    by_cases hkey : key ∈ Assoc.keys first.database.schemas
    · obtain ⟨table, htable, rfl⟩ := List.mem_map.1 hkey
      exact (h.readsAlike_saved hfirst hsecond htable).exists_iff
    · have hunwritten {workspace : Workspace} (hnone : key ∉ Assoc.keys workspace.database.schemas)
          (table : Table) : (key, table) ∉ workspace.written path name := fun hmem => by
        rw [mem_keys_schemas, mem_loadedTables.1 ((List.takeWhile_prefix _).mem hmem)] at hnone
        exact hnone rfl
      rw [get?_saving_rowFile (hunwritten hkey),
        get?_saving_rowFile (hunwritten (h.schemas ▸ hkey))]
      exact h.stores.exists_iff _
  · rw [runOn_save_of_not_counted hfirst hcounted,
      runOn_save_of_not_counted hsecond (h.schemas ▸ hcounted)]
    have hnothing {workspace : Workspace} : ∀ entry ∈ ([] : List (Text × Table)),
        entry ∈ workspace.written path name := fun _ hmem => absurd hmem List.not_mem_nil
    refine h.saving hfirst hsecond [] [] hnothing hnothing (fun key => ?_)
      fun hall => absurd hall hcounted
    rw [get?_saving_rowFile fun _ => List.not_mem_nil, get?_saving_rowFile fun _ => List.not_mem_nil]
    exact h.stores.exists_iff _

end Workspace

end Relbase
