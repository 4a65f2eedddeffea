import Relbase.Proofs.Session.Altering

/-!
# Opening what was left

A description is read back as the schema that it was made from, and the metadata of a database
list its tables in their order.  So a database that is left and opened again has the same tables
with the same schemas, and none of them loaded.  It can be left if it can be saved, and only then;
but its metadata are written before any row file, so that a new session finds all its tables even
where a row file is refused.
-/

namespace Relbase

open Relbase.Action

structure Store.HasMetadata (path name : Text) (database : Database) (store : Store) : Prop where
  orderly : store.IsOrderly path
  identifier : IsIdentifier name
  sound : SoundSchemas database.schemas
  metadata : store.get? [name, Database.metadataName] =
    some (.file (.text (metadataText database.schemas)))

def Database.IsUnloaded (database unloaded : Database) : Prop :=
  unloaded.tables.entries = database.tables.entries.map fun entry =>
    (entry.1, ⟨entry.2.schema, none⟩)

namespace Workspace

variable {path name : Text} {workspace : Workspace}

theorem IsSound.hasMetadata_withRows (h : workspace.IsSound path name) {tables : List (Text × Table)}
    (htables : ∀ entry ∈ tables, entry ∈ workspace.database.loadedTables ∧
      (fileIn path name (Database.rowFileName entry.1)).IsUsable) :
    ((workspace.withMetadata name).withRows name tables).store.HasMetadata path name
      workspace.database where
  orderly := (h.saved htables).store
  identifier := h.identifier
  sound := h.soundSchemas
  metadata := get?_saved_metadata workspace name tables

/-- The metadata are saved whether or not all row files can be. -/
theorem IsSound.ensures_save_hasMetadata (h : workspace.IsSound path name) :
    save.Ensures workspace
      (fun _ later => workspace.database.IsSavable path name ∧
        later.store.HasMetadata path name workspace.database)
      fun _ later => ¬ workspace.database.IsSavable path name ∧
        later.store.HasMetadata path name workspace.database := by
  refine (ensures_save h).mono (fun _ later hsaved => ?_) fun _ later hfailed => ?_
  · obtain ⟨hcounted, husable, rfl⟩ := hsaved
    exact ⟨⟨hcounted, husable⟩,
      h.hasMetadata_withRows fun entry hentry => ⟨hentry, husable entry hentry⟩⟩
  · obtain ⟨hblocked, written, hwritten, rfl⟩ := hfailed
    refine ⟨fun hsavable => ?_, h.hasMetadata_withRows hwritten⟩
    obtain ⟨entry, hentry, hunusable⟩ := hblocked hsavable.counted
    exact hunusable (hsavable.writable entry hentry)

end Workspace

namespace Session

variable {path name : Text} {session : Session} {database : Database}

theorem IsSound.ensures_close_hasMetadata (h : session.IsSound path)
    (hcurrent : session.current = some (name, database)) :
    close.Ensures session
      (fun _ later => later = session.left later.store ∧ database.IsSavable path name ∧
        later.store.HasMetadata path name database)
      fun _ later => ¬ database.IsSavable path name ∧
        later.store.HasMetadata path name database := by
  refine ensures_close_of_save (fun hnone => by simp [hnone] at hcurrent) fun other found hfound => ?_
  cases hcurrent.symm.trans hfound
  exact (h.current name database hcurrent).ensures_save_hasMetadata.mono
    (fun _ _ hsaved => ⟨rfl, hsaved⟩) fun _ _ hfailed => hfailed

theorem exists_runOn_useDatabase (h : session.IsSound path) (hnone : session.current = none)
    (hmetadata : session.store.HasMetadata path name database)
    (hcounted : AllCounted database.schemas) :
    ∃ later reopened, (useDatabase name).runOn session = (.ok (), later) ∧
      later.current = some (name, reopened) ∧ database.IsUnloaded reopened :=
  ⟨_, _, runOn_useDatabase_saved h hnone hmetadata.identifier hmetadata.sound hcounted
    hmetadata.metadata, rfl, Database.entries_ofSchemas_schemas _ database⟩

/-- The database in use can be left and opened again with its tables. -/
def Reopens (session : Session) (name : Text) (database : Database) : Prop :=
  ∃ later reopened, (close >>= fun _ => useDatabase name).runOn session = (.ok (), later) ∧
    later.current = some (name, reopened) ∧ database.IsUnloaded reopened

theorem not_reopens_of_close {failure : Failure} (hclose : (close.runOn session).1 = .error failure) :
    ¬ session.Reopens name database := by
  rintro ⟨later, reopened, hrun, -⟩
  rw [runOn_bind] at hrun
  split at hrun
  · rename_i heq
    rw [heq] at hclose
    cases hclose
  · cases hrun

theorem IsSound.reopens_iff (h : session.IsSound path)
    (hcurrent : session.current = some (name, database)) :
    session.Reopens name database ↔ database.IsSavable path name := by
  have hcloses := h.ensures_close_hasMetadata hcurrent
  rcases hclose : close.runOn session with ⟨failure | _, closed⟩
  · exact iff_of_false (not_reopens_of_close (by rw [hclose])) (hcloses.of_error hclose).1
  · obtain ⟨hclosed, hsavable, hmetadata⟩ := hcloses.of_ok hclose
    have hsound : closed.IsSound path := hclosed ▸ h.left hmetadata.orderly
    rw [Reopens, runOn_bind_of_ok hclose]
    exact iff_of_true (exists_runOn_useDatabase hsound (hclosed ▸ rfl) hmetadata hsavable.counted)
      hsavable

/-- A database that was built by commands can be left and opened again, with the same tables in the
same order, the same schemas and nothing loaded, if and only if it can be saved.  Even if it
cannot, a new session opens it so, unless a counter has too many digits to be written.  And whatever
is read as a schema is read from its own description as the same schema. -/
theorem reopens_iff_isSavable (path : Text) (events : List Event) {name : Text}
    {database : Database} (hcurrent : (after path events).current = some (name, database)) :
    ((after path events).Reopens name database ↔ database.IsSavable path name) ∧
      (AllCounted database.schemas → ∃ later reopened,
        (useDatabase name).runOn (start path (close.runOn (after path events)).2.store) =
            (.ok (), later) ∧
          later.current = some (name, reopened) ∧ database.IsUnloaded reopened) ∧
      ∀ json, (Schema.ofJson json >>= fun schema => Schema.ofJson schema.toJson) =
        Schema.ofJson json := by
  have h := isSound_after path events
  refine ⟨h.reopens_iff hcurrent, fun hcounted => ?_, fun json => ?_⟩
  · have hmetadata : (close.runOn (after path events)).2.store.HasMetadata path name database :=
      ((h.ensures_close_hasMetadata hcurrent).mono (fun _ _ hdone => hdone.2.2)
        fun _ _ hfailed => hfailed.2).finally
    have hstart : (start path (close.runOn (after path events)).2.store).IsSound path :=
      (isSound_start path).left hmetadata.orderly
    exact exists_runOn_useDatabase hstart rfl hmetadata hcounted
  · cases Schema.ofJson json with
    | error failure => rfl
    | ok schema => exact Schema.ofJson_toJson schema

theorem reopens_firstRecord :
    ∃ database, (after "r".toList (firstTable ++
        [.query "INSERT INTO t VALUES ('x');".toList])).current = some (['d'], database) ∧
      (after "r".toList (firstTable ++ [.query "INSERT INTO t VALUES ('x');".toList])).Reopens ['d']
        database ∧
      database.schemas.map (·.2.nextId) = [2] := by
  have hcurrent : (after "r".toList (firstTable ++
      [.query "INSERT INTO t VALUES ('x');".toList])).current.any (fun current =>
        current.1 == ['d'] && current.2.schemas.map (·.2.nextId) == [2] &&
          (current.2.schemas.all fun entry => !Text.isOversized entry.2.nextId) &&
            current.2.loadedTables.all fun entry =>
              decide (fileIn "r".toList ['d'] (Database.rowFileName entry.1)).IsUsable) = true := by
    decide +kernel
  obtain ⟨⟨name, database⟩, hcurrent, htests⟩ := (Option.any_eq_true _ _).1 hcurrent
  simp only [Bool.and_eq_true, beq_iff_eq, List.all_eq_true, Bool.not_eq_true',
    decide_eq_true_eq] at htests
  obtain ⟨⟨⟨rfl, hnext⟩, hcounted⟩, husable⟩ := htests
  exact ⟨database, hcurrent, (reopens_iff_isSavable _ _ hcurrent).1.2 ⟨hcounted, husable⟩, hnext⟩

/-- A table whose row file was refused when it was created keeps its database from being left. -/
theorem overlongTable_not_reopens :
    ∃ database, (after "r".toList overlongTable).current = some (['d'], database) ∧
      (database.tables.get? overlongName).isSome = true ∧
      ¬ (after "r".toList overlongTable).Reopens ['d'] database := by
  obtain ⟨hcurrent, hclose⟩ : (after "r".toList overlongTable).current.any (fun current =>
      current.1 == ['d'] && (current.2.tables.get? overlongName).isSome) = true ∧
        (close.runOn (after "r".toList overlongTable)).1.isOk = false := by decide +kernel
  obtain ⟨⟨name, database⟩, hcurrent, htests⟩ := (Option.any_eq_true _ _).1 hcurrent
  simp only [Bool.and_eq_true, beq_iff_eq] at htests
  obtain ⟨rfl, hregistered⟩ := htests
  obtain ⟨failure, hfailure⟩ := exists_of_not_isOk hclose
  exact ⟨database, hcurrent, hregistered, not_reopens_of_close hfailure⟩

end Session

end Relbase
