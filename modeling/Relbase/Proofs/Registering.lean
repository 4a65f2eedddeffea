import Relbase.Proofs.ErrorClass
import Relbase.Proofs.Failures
import Relbase.Proofs.Workspace

/-!
# Creating and dropping tables

A table is entered in the register before its row file is written, and taken out of it before
its row file is deleted.  So a creation or a drop that is refused by its name or its attributes
leaves everything as it was, and one that is refused by the file system leaves the files as they
were but not the register.  Nothing is assumed about the database or its directory.
-/

namespace Relbase

open Relbase.Action

def Failure.IsOfFiles (failure : Failure) : Prop :=
  failure.errorClass = .inl .storage ∨ failure = .unforeseen .malformedPath

theorem Failure.IsOfFiles.errorClass_ne {failure : Failure} (h : failure.IsOfFiles)
    {kind : ErrorClass} (hkind : kind ≠ .storage) : failure.errorClass ≠ .inl kind := by
  rcases h with hclass | rfl
  · simp [hclass, Ne.symm hkind]
  · simp [errorClass]

theorem Files.ensures_change_files {store : Store} {place : Place} (task : StorageTask)
    (operation : Store → Except FileCause Store) :
    (change task place operation).Ensures store
      (fun _ later => operation store = .ok later)
      fun failure later => failure.IsOfFiles ∧ later = store := by
  rw [change, ensures_bind]
  cases hformed : place.isMalformed with
  | true =>
      rw [attempt, hformed]
      exact ⟨.inr rfl, rfl⟩
  | false =>
      refine (ensures_attempt hformed operation).mono (fun _ _ hdone => hdone.1) fun _ _ hfailed => ?_
      obtain ⟨⟨cause, rfl⟩, hstore⟩ := hfailed
      exact ⟨.inl rfl, hstore⟩

namespace Workspace

variable {workspace : Workspace}

/-! ## Entries of the register -/

theorem entries_registered {key : Text} (hnew : workspace.database.tables.get? key = none)
    (registration : Registration) :
    (workspace.registered key registration).database.tables.entries =
      workspace.database.tables.entries ++ [(key, registration)] :=
  Assoc.put_eq_append (Assoc.get?_eq_none_iff.1 hnew)

theorem database_registered_ne {key : Text} (hnew : workspace.database.tables.get? key = none)
    (registration : Registration) :
    (workspace.registered key registration).database ≠ workspace.database := by
  intro heq
  have hget := congrArg (·.tables.get? key) heq
  simp [registered, hnew] at hget

theorem database_unregistered_ne {key : Text} {registration : Registration}
    (hfound : workspace.database.tables.get? key = some registration) :
    (workspace.unregistered key).database ≠ workspace.database := by
  intro heq
  have hget := congrArg (·.tables.get? key) heq
  simp [unregistered, hfound] at hget

/-! ## Creations and drops -/

def created (displayName : Text) (attributes : AttributeSet) : Table :=
  .ofSchema (.fresh displayName attributes)

theorem ensures_createTable_register (workspace : Workspace) (displayName : Text)
    (names : List Text) :
    (createTable displayName names).Ensures workspace
      (fun _ later => ∃ attributes, attributes.names = idName :: names ∧
        workspace.database.tables.get? displayName.lower = none ∧
          later.database = (workspace.registered displayName.lower
            (.ofTable (created displayName attributes))).database ∧
          workspace.store.write (workspace.database.rowFilePlace displayName.lower)
            (.text (rowText (created displayName attributes))) = .ok later.store)
      fun failure later =>
        (failure = .reported (.duplicateTable displayName) ∨ failure = .reported .repeatedColumn) ∧
          later = workspace ∨
        failure.IsOfFiles ∧ workspace.database.tables.get? displayName.lower = none ∧
          ∃ attributes, attributes.names = idName :: names ∧
            later = workspace.registered displayName.lower
              (.ofTable (created displayName attributes)) := by
  simp only [createTable, ensures_bind, ensures_get]
  split
  · exact .inl ⟨.inl rfl, rfl⟩
  rename_i hnew
  have hnone : workspace.database.tables.get? displayName.lower = none := by
    simpa [Database.hasTable, OrderedMap.contains] using hnew
  obtain ⟨attributes, hattributes, hnames⟩ | hrepeated := freshAttributes_cases names
  · simp only [hattributes, ensures_bind, register, ensures_modify, writeTable, ensures_get,
      onStore, ensures_within]
    refine (Files.ensures_change_files _ _).mono (fun _ store hwritten => ?_)
      fun failure store hfailed => ?_
    · exact ⟨attributes, hnames, hnone, rfl, hwritten⟩
    · obtain ⟨hfailure, rfl⟩ := hfailed
      exact .inr ⟨hfailure, hnone, attributes, hnames, rfl⟩
  · rw [hrepeated]
    exact .inl ⟨.inr rfl, rfl⟩

theorem ensures_dropTable_register (workspace : Workspace) (name : Text) :
    (dropTable name).Ensures workspace
      (fun _ later => (workspace.database.tables.get? name.lower).isSome = true ∧
        later.database = (workspace.unregistered name.lower).database ∧
          workspace.store.remove (workspace.database.rowFilePlace name.lower) = .ok later.store)
      fun failure later =>
        failure = .reported (.tableNotFound name) ∧ later = workspace ∨
        failure.IsOfFiles ∧ (workspace.database.tables.get? name.lower).isSome = true ∧
          later = workspace.unregistered name.lower := by
  simp only [dropTable, registration, ensures_bind, ensures_get]
  split
  · rename_i found hfound
    simp only [ensures_pure, unregister, ensures_modify, onStore, ensures_within]
    refine (Files.ensures_change_files _ _).mono (fun _ store hremoved => ?_)
      fun failure store hfailed => ?_
    · exact ⟨by rw [hfound]; rfl, rfl, hremoved⟩
    · obtain ⟨hfailure, rfl⟩ := hfailed
      exact .inr ⟨hfailure, by rw [hfound]; rfl, rfl⟩
  · exact .inl ⟨rfl, rfl⟩

/-! ## What is left of a failure -/

/-- The register has one more table, and it is the last. -/
def Enters (displayName : Text) (names : List Text) (workspace later : Workspace) : Prop :=
  ∃ attributes, attributes.names = idName :: names ∧
    later.database.directory = workspace.database.directory ∧
      later.database.tables.entries = workspace.database.tables.entries ++
        [(displayName.lower, .ofTable (created displayName attributes))]

def TakesOut (name : Text) (workspace later : Workspace) : Prop :=
  (workspace.database.tables.get? name.lower).isSome = true ∧
    later.database.directory = workspace.database.directory ∧
      later.database.tables.entries = Assoc.erase name.lower workspace.database.tables.entries

/-- A creation or a drop that fails never changes a file.  It leaves the register as it was if
and only if it was refused for its names; if the file system refused it, the register is as if
it had succeeded. -/
theorem failed_change_unchanged_iff (workspace : Workspace) :
    (∀ displayName names, (createTable displayName names).Ensures workspace
      (fun _ later => Enters displayName names workspace later)
      fun failure later => later.store = workspace.store ∧
        (later.database = workspace.database ↔ failure.errorClass = .inl .duplicateTable ∨
          failure.errorClass = .inl .duplicateAttribute) ∧
        (later.database ≠ workspace.database →
          failure.IsOfFiles ∧ Enters displayName names workspace later)) ∧
    ∀ name, (dropTable name).Ensures workspace
      (fun _ later => TakesOut name workspace later)
      fun failure later => later.store = workspace.store ∧
        (later.database = workspace.database ↔ failure.errorClass = .inl .tableNotFound) ∧
        (later.database ≠ workspace.database →
          failure.IsOfFiles ∧ TakesOut name workspace later) := by
  constructor
  · intro displayName names
    refine (ensures_createTable_register workspace displayName names).mono
      (fun _ later hdone => ?_) fun failure later hfailed => ?_
    · obtain ⟨attributes, hnames, hnew, hdatabase, -⟩ := hdone
      refine ⟨attributes, hnames, by rw [hdatabase]; rfl, ?_⟩
      rw [hdatabase, entries_registered hnew]
    obtain ⟨hclass, rfl⟩ | ⟨hfiles, hnew, attributes, hnames, rfl⟩ := hfailed
    · refine ⟨rfl, iff_of_true rfl ?_, fun hne => absurd rfl hne⟩
      rcases hclass with rfl | rfl
      · exact .inl rfl
      · exact .inr rfl
    · have hclass : ¬ (failure.errorClass = .inl .duplicateTable ∨
          failure.errorClass = .inl .duplicateAttribute) :=
        not_or.2 ⟨hfiles.errorClass_ne nofun, hfiles.errorClass_ne nofun⟩
      exact ⟨rfl, iff_of_false (database_registered_ne hnew _) hclass,
        fun _ => ⟨hfiles, attributes, hnames, rfl, entries_registered hnew _⟩⟩
  · intro name
    refine (ensures_dropTable_register workspace name).mono
      (fun _ later hdone => ?_) fun failure later hfailed => ?_
    · obtain ⟨hfound, hdatabase, -⟩ := hdone
      exact ⟨hfound, by rw [hdatabase]; rfl, by rw [hdatabase]; rfl⟩
    obtain ⟨rfl, rfl⟩ | ⟨hfiles, hfound, rfl⟩ := hfailed
    · exact ⟨rfl, iff_of_true rfl rfl, fun hne => absurd rfl hne⟩
    · obtain ⟨registration, hregistration⟩ := Option.isSome_iff_exists.1 hfound
      exact ⟨rfl, iff_of_false (database_unregistered_ne hregistration) (hfiles.errorClass_ne nofun),
        fun _ => ⟨hfiles, hfound, rfl, rfl⟩⟩

/-- A database with one table, whose row file is missing, and a directory in the place of the
row file of another table. -/
def blocked : Workspace where
  database :=
    { directory := (Place.root "/r".toList).child ['d']
      tables := OrderedMap.ofList [(['u'], ⟨.fresh ['u'] ⟨[idName], by decide +kernel⟩, none⟩)] }
  store := SortedMap.ofList
    [([], .directory), ([['d']], .directory), ([['d'], "t.tab".toList], .directory)]

/-- The file system refuses a creation and a drop, and the register is changed. -/
theorem blocked_register_changes :
    ((createTable ['t'] [['a']]).runOn blocked).1.mapError Failure.errorClass =
        .error (.inl .storage) ∧
      blocked.database.hasTable ['t'] = false ∧
      ((createTable ['t'] [['a']]).runOn blocked).2.database.hasTable ['t'] = true ∧
      ((dropTable ['u']).runOn blocked).1.mapError Failure.errorClass = .error (.inl .storage) ∧
      blocked.database.hasTable ['u'] = true ∧
      ((dropTable ['u']).runOn blocked).2.database.hasTable ['u'] = false := by
  decide +kernel

end Workspace

end Relbase
