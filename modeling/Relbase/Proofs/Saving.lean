import Mathlib.Data.List.Find
import Relbase.Proofs.Likeness.Stores

/-!
# What saving writes

Saving writes the metadata file and then the row files of the loaded tables in turn, up to
the first one that cannot be.  Only a table that was made in memory can be loaded without a
place for its row file, so the tables that block saving can be told from the answers for
them, and need not be looked for among those that are loaded.
-/

namespace Relbase

open Relbase.Action

theorem mem_takeWhile_of_imp {α : Type} {p q : α → Bool} {items : List α} {item : α}
    (h : ∀ other ∈ items, p other = true → q other = true) (hitem : item ∈ items.takeWhile p) :
    item ∈ items.takeWhile q := by
  induction items with
  | nil => exact hitem
  | cons first rest ih =>
      obtain ⟨hfirst, hrest⟩ := List.forall_mem_cons.1 h
      by_cases hp : p first = true
      · rw [List.takeWhile_cons_of_pos hp, List.mem_cons] at hitem
        rw [List.takeWhile_cons_of_pos (hfirst hp), List.mem_cons]
        exact hitem.imp_right (ih hrest)
      · rw [List.takeWhile_cons_of_neg hp] at hitem
        cases hitem

namespace Store.IsOrderly

variable {path name : Text} {store : Store}

theorem runOn_writeText (h : store.IsOrderly path) (hname : IsIdentifier name)
    (hparent : store.get? [name] = some .directory) {file : Text} (hstep : IsStep file)
    (husable : (fileIn path name file).IsUsable) (task : StorageTask) (text : Text) :
    (Files.writeText task (fileIn path name file) text).runOn store =
      (.ok (), store.insert [name, file] (.file (.text text))) := by
  have hwrite := h.ensures_writeText hname hparent hstep task text
  rcases hrun : (Files.writeText task (fileIn path name file) text).runOn store with
    ⟨failure | _, later⟩
  · exact absurd husable (hwrite.of_error hrun).1
  · rw [(hwrite.of_ok hrun).2]

end Store.IsOrderly

namespace Workspace

variable {path name : Text} {workspace first second : Workspace}

/-! ## Row files -/

theorem IsSound.sameWay (hfirst : first.IsSound path name) (hsecond : second.IsSound path name) :
    Store.SameWay name first.store second.store :=
  ⟨hfirst.store.root.trans hsecond.store.root.symm, hfirst.parent.trans hsecond.parent.symm⟩

theorem runOn_writeTable_of_usable (h : workspace.IsSound path name) {key : Text}
    (hkey : IsIdentifier key) (husable : (fileIn path name (Database.rowFileName key)).IsUsable)
    (table : Table) :
    (writeTable key table).runOn workspace =
      (.ok (), workspace.withFile name (Database.rowFileName key) (rowText table)) := by
  have hwrite := ensures_writeTable h hkey table
  rcases hrun : (writeTable key table).runOn workspace with ⟨failure | _, later⟩
  · exact absurd husable (hwrite.of_error hrun).1
  · rw [(hwrite.of_ok hrun).2]

theorem outcome_writeTable_congr (hfirst : first.IsSound path name)
    (hsecond : second.IsSound path name) {key : Text} (hkey : IsIdentifier key)
    (table other : Table) :
    ((writeTable key table).runOn first).1 = ((writeTable key other).runOn second).1 := by
  rw [writeTable, writeTable, runOn_get_bind, runOn_get_bind, onStore, onStore, runOn_within,
    runOn_within, hfirst.rowFilePlace_eq, hsecond.rowFilePlace_eq]
  exact Files.outcome_change_congr ((hfirst.sameWay hsecond).write hfirst.identifier.isStep
    hkey.isStep_rowFileName hfirst.store hsecond.store _ _)

theorem runOn_writeTables (h : workspace.IsSound path name) {tables : List (Text × Table)}
    (hkeys : ∀ entry ∈ tables, IsIdentifier entry.1) :
    (writeTables tables).runOn workspace =
      (match tables.find? fun entry => ¬ (fileIn path name (Database.rowFileName entry.1)).IsUsable with
      | none => .ok ()
      | some entry => ((writeTable entry.1 entry.2).runOn workspace).1,
      workspace.withRows name (tables.takeWhile fun entry =>
        (fileIn path name (Database.rowFileName entry.1)).IsUsable)) := by
  induction tables generalizing workspace with
  | nil => rfl
  | cons entry rest ih =>
      obtain ⟨hkey, hrest⟩ := List.forall_mem_cons.1 hkeys
      by_cases husable : (fileIn path name (Database.rowFileName entry.1)).IsUsable
      · have hsound : (workspace.withFile name (Database.rowFileName entry.1)
            (rowText entry.2)).IsSound path name :=
          h.withFile hkey.isStep_rowFileName husable
            fun heq => absurd heq (rowFileName_ne_metadataName entry.1)
        rw [writeTables, runOn_bind_of_ok (runOn_writeTable_of_usable h hkey husable entry.2),
          ih hsound hrest, List.find?_cons_of_neg (by simp [husable]),
          List.takeWhile_cons_of_pos (by simp [husable])]
        refine Prod.ext ?_ rfl
        cases hfind : rest.find? fun entry =>
          ¬ (fileIn path name (Database.rowFileName entry.1)).IsUsable with
        | none => rfl
        -- It fails in a store with this row file written as it would fail here.
        | some other =>
            exact outcome_writeTable_congr hsound h (hrest other (List.mem_of_find?_eq_some hfind)) _ _
      · have hwrite := ensures_writeTable h hkey entry.2
        rw [writeTables, List.find?_cons_of_pos (by simp [husable]),
          List.takeWhile_cons_of_neg (by simp [husable]), runOn_bind]
        rcases hrun : (writeTable entry.1 entry.2).runOn workspace with ⟨failure | _, later⟩
        · simp only [hrun, (hwrite.of_error hrun).2]
          rfl
        · exact absurd (hwrite.of_ok hrun).1 husable

/-! ## Tables that block saving -/

/-- A table that is in memory blocks saving if its row file cannot be. -/
def Blocks (path name : Text) (workspace : Workspace) (key : Text) : Prop :=
  ¬ (fileIn path name (Database.rowFileName key)).IsUsable ∧ (workspace.tableOf key).isOk = true

instance (path name : Text) (workspace : Workspace) (key : Text) :
    Decidable (workspace.Blocks path name key) :=
  inferInstanceAs (Decidable (_ ∧ _))

/-- The tables that come before all that block saving. -/
def ahead (path name : Text) (workspace : Workspace) : List Text :=
  (Assoc.keys workspace.database.schemas).takeWhile fun key => ¬ workspace.Blocks path name key

def written (path name : Text) (workspace : Workspace) : List (Text × Table) :=
  workspace.database.loadedTables.takeWhile fun entry =>
    (fileIn path name (Database.rowFileName entry.1)).IsUsable

theorem IsSound.tableOf_of_mem (h : workspace.IsSound path name) {key : Text} {found : Registration}
    (hmem : (key, found) ∈ workspace.database.tables.entries) :
    workspace.tableOf key =
      match found.table? with
      | some table => .ok table
      | none =>
          Workspace.tableAt workspace.store (fileIn path name (Database.rowFileName key)) found.schema := by
  have hfound := OrderedMap.get?_eq_some_iff.2 hmem
  have hlower := (h.tables key found hfound).schema.key.2
  cases htable : found.table? with
  | some table => exact tableOf_loaded (by rw [hlower, hfound, Registration.eq_ofTable htable])
  | none => simp only [Workspace.tableOf, hlower, hfound, htable, h.rowFilePlace_eq]

theorem IsSound.blocks_iff (h : workspace.IsSound path name) {key : Text} {found : Registration}
    (hmem : (key, found) ∈ workspace.database.tables.entries) :
    workspace.Blocks path name key ↔
      ¬ (fileIn path name (Database.rowFileName key)).IsUsable ∧ found.table?.isSome = true := by
  rw [Blocks, h.tableOf_of_mem hmem]
  refine and_congr_right fun hunusable => ?_
  have hkey := (h.tables key found (OrderedMap.get?_eq_some_iff.2 hmem)).schema.key.1
  cases found.table? with
  | some table => exact ⟨fun _ => rfl, fun _ => rfl⟩
  | none =>
      refine ⟨fun hok => ?_, nofun⟩
      cases htable : Workspace.tableAt workspace.store
        (fileIn path name (Database.rowFileName key)) found.schema with
      | error failure =>
          rw [htable] at hok
          cases hok
      | ok table =>
          obtain ⟨entry, hentry⟩ :=
            Option.isSome_iff_exists.1 (exists_entry_of_tableAt h.identifier hkey htable)
          exact absurd (h.store.usable name _ entry hentry).2 hunusable

theorem keys_schemas (database : Database) :
    Assoc.keys database.schemas = database.tables.entries.map Prod.fst :=
  Assoc.keys_map Registration.schema _

theorem IsSound.mem_written_iff (h : workspace.IsSound path name) {key : Text} {table : Table} :
    (key, table) ∈ workspace.written path name ↔
      (key, table) ∈ workspace.database.loadedTables ∧ key ∈ workspace.ahead path name := by
  have hahead : key ∈ workspace.ahead path name ↔ ∃ found, (key, found) ∈
      workspace.database.tables.entries.takeWhile fun entry => ¬ workspace.Blocks path name entry.1 := by
    rw [ahead, keys_schemas, List.takeWhile_map, List.mem_map]
    exact ⟨fun ⟨⟨_, found⟩, hmem, heq⟩ => ⟨found, heq ▸ hmem⟩, fun ⟨found, hmem⟩ => ⟨_, hmem, rfl⟩⟩
  have hloaded {found : Registration} (hmem : (key, found) ∈ workspace.database.tables.entries) :
      (key, table) ∈ workspace.database.loadedTables ↔ found.table? = some table := by
    rw [mem_loadedTables, OrderedMap.get?_eq_some_iff.2 hmem, Option.some.injEq]
    exact ⟨fun heq => heq ▸ rfl, Registration.eq_ofTable⟩
  rw [written, Database.loadedTables, List.takeWhile_filterMap, List.mem_filterMap, hahead]
  constructor
  · rintro ⟨⟨other, found⟩, hmem, heq⟩
    obtain ⟨table, htable, heq⟩ := Option.map_eq_some_iff.1 heq
    cases heq
    have hentry := (List.takeWhile_prefix _).mem hmem
    refine ⟨(hloaded hentry).2 htable, found, mem_takeWhile_of_imp (fun other hother husable => ?_) hmem⟩
    rw [decide_eq_true_iff, h.blocks_iff hother]
    rintro ⟨hunusable, hsome⟩
    obtain ⟨table, htable⟩ := Option.isSome_iff_exists.1 hsome
    simp [htable, hunusable] at husable
  · rintro ⟨hmem, found, hfound⟩
    have hentry := (List.takeWhile_prefix _).mem hfound
    have htable := (hloaded hentry).1 hmem
    refine ⟨(key, found), mem_takeWhile_of_imp (fun other hother hclear => ?_) hfound, by simp [htable]⟩
    rw [decide_eq_true_iff, h.blocks_iff hother] at hclear
    cases hother : other.2.table? with
    | none => rfl
    | some table => simpa [hother] using hclear

theorem IsSound.find?_loadedTables (h : workspace.IsSound path name) :
    (workspace.database.loadedTables.find? fun entry =>
        ¬ (fileIn path name (Database.rowFileName entry.1)).IsUsable).map Prod.fst =
      (Assoc.keys workspace.database.schemas).find? fun key => workspace.Blocks path name key := by
  have hblocks : ∀ entry ∈ workspace.database.tables.entries,
      ((entry.2.table?.map fun table => (entry.1, table)).any fun loaded =>
        ¬ (fileIn path name (Database.rowFileName loaded.1)).IsUsable) =
          decide (workspace.Blocks path name entry.1) := by
    intro entry hmem
    rw [Bool.eq_iff_iff, decide_eq_true_iff, h.blocks_iff hmem]
    cases entry.2.table? <;> simp
  rw [Database.loadedTables, List.find?_filterMap, List.find?_congr hblocks, keys_schemas,
    List.find?_map]
  change _ = (workspace.database.tables.entries.find? fun entry =>
    workspace.Blocks path name entry.1).map Prod.fst
  cases hfind : workspace.database.tables.entries.find? fun entry =>
      workspace.Blocks path name entry.1 with
  | none => rfl
  | some entry =>
      have hentry : workspace.Blocks path name entry.1 := by simpa using List.find?_some hfind
      obtain ⟨table, htable⟩ := Option.isSome_iff_exists.1
        ((h.blocks_iff (List.mem_of_find?_eq_some hfind)).1 hentry).2
      simp [htable]

/-! ## Saving -/

theorem IsSound.runOn_writeMetadata (h : workspace.IsSound path name) :
    (onStore (Files.writeMetadata (Database.metadataPlace workspace.database.directory)
      workspace.database.metadata)).runOn workspace =
        (if Json.gap ∈ (Json.object (describing workspace.database.schemas)).render then
          .error (.unforeseen .oversizedInteger)
        else .ok (), workspace.withMetadata name) := by
  have hwrite := h.store.runOn_writeText h.identifier h.parent isStep_metadataName
    h.usable_metadata (.writeMetadata (fileIn path name Database.metadataName).path)
      (metadataText workspace.database.schemas)
  rw [metadataText] at hwrite
  rw [onStore, runOn_within, h.metadataPlace_eq, Database.metadata_eq, Files.writeMetadata,
    runOn_bind_of_ok hwrite]
  by_cases hgap : Json.gap ∈ (Json.object (describing workspace.database.schemas)).render
  · rw [if_pos (by simpa using hgap), if_pos hgap]
    rfl
  · rw [if_neg (by simpa using hgap), if_neg hgap]
    rfl

theorem runOn_save_of_counted (h : workspace.IsSound path name)
    (hcounted : AllCounted workspace.database.schemas) :
    save.runOn workspace =
      (match workspace.database.loadedTables.find? fun entry =>
          ¬ (fileIn path name (Database.rowFileName entry.1)).IsUsable with
      | none => .ok ()
      | some entry => ((writeTable entry.1 entry.2).runOn workspace).1,
      (workspace.withMetadata name).withRows name (workspace.written path name)) := by
  have hmetadata := h.runOn_writeMetadata
  rw [if_neg (h.soundSchemas.counted_iff.1 hcounted)] at hmetadata
  rw [save, runOn_get_bind, runOn_bind_of_ok hmetadata,
    runOn_writeTables h.withMetadata h.isIdentifier_loaded]
  refine Prod.ext ?_ rfl
  cases hfind : workspace.database.loadedTables.find? fun entry =>
    ¬ (fileIn path name (Database.rowFileName entry.1)).IsUsable with
  | none => rfl
  | some entry =>
      exact outcome_writeTable_congr h.withMetadata h
        (h.isIdentifier_loaded entry (List.mem_of_find?_eq_some hfind)) _ _

theorem runOn_save_of_not_counted (h : workspace.IsSound path name)
    (hcounted : ¬ AllCounted workspace.database.schemas) :
    save.runOn workspace =
      (.error (.unforeseen .oversizedInteger), workspace.withMetadata name) := by
  have hmetadata := h.runOn_writeMetadata
  rw [if_pos (not_not.1 fun hgap => hcounted (h.soundSchemas.counted_iff.2 hgap))] at hmetadata
  rw [save, runOn_get_bind, runOn_bind, hmetadata]

end Workspace

end Relbase
