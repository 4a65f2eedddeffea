import Relbase.Proofs.Session.Changes
import Relbase.Proofs.Session.Damage

/-!
# Switching databases

To open a database is to leave the one in use before the new metadata are read.  So an opening
that fails keeps the database in use, unless that has been saved and left by then: the new
metadata are found unreadable too late.  Nothing is assumed about the session or its files.
-/

namespace Relbase

open Relbase.Action

namespace Workspace

theorem ensures_onStore_database (workspace : Workspace) (action : Action Store Unit) :
    (onStore action).Ensures workspace (fun _ later => later.database = workspace.database)
      fun _ later => later.database = workspace.database := by
  rw [onStore, ensures_within]
  exact ensures_of_runOn (Prod.ext rfl rfl) (fun _ _ => rfl) fun _ _ => rfl

theorem ensures_writeTables_database (workspace : Workspace) (tables : List (Text × Table)) :
    (writeTables tables).Ensures workspace (fun _ later => later.database = workspace.database)
      fun _ later => later.database = workspace.database := by
  induction tables generalizing workspace with
  | nil => exact rfl
  | cons entry rest ih =>
      simp only [writeTables, writeTable, ensures_bind, ensures_get]
      refine (ensures_onStore_database workspace _).mono (fun _ later hlater => ?_)
        fun _ _ hlater => hlater
      rw [← hlater]
      exact ih later

theorem database_save (workspace : Workspace) :
    (save.runOn workspace).2.database = workspace.database := by
  have hsave : save.Ensures workspace (fun _ later => later.database = workspace.database)
      fun _ later => later.database = workspace.database := by
    simp only [save, ensures_bind, ensures_get]
    refine (ensures_onStore_database workspace _).mono (fun _ later hlater => ?_)
      fun _ _ hlater => hlater
    have htables := ensures_writeTables_database later workspace.database.loadedTables
    rwa [hlater] at htables
  exact hsave.finally

end Workspace

namespace Session

variable {session : Session} {name : Text}

/-! ## Leaving a database -/

/-- The database in use is saved in a store. -/
def IsSavedIn (session : Session) (store : Store) : Prop :=
  ∃ previous database, session.current = some (previous, database) ∧
    Workspace.save.runOn ⟨database, session.store⟩ = (.ok (), ⟨database, store⟩)

theorem ensures_close_saves (session : Session) :
    close.Ensures session
      (fun _ later => session.current = none ∧ later = session ∨
        session.IsSavedIn later.store ∧ later = session.left later.store)
      fun _ later => later.current = session.current ∧ ∀ store, ¬ session.IsSavedIn store := by
  refine ensures_close_of_save (fun hnone => .inl ⟨hnone, rfl⟩) fun previous database hcurrent => ?_
  have hdatabase := Workspace.database_save ⟨database, session.store⟩
  rw [Ensures]
  rcases hrun : Workspace.save.runOn ⟨database, session.store⟩ with ⟨failure | _, saved⟩
  · rw [hrun] at hdatabase
    refine ⟨by rw [entered, hdatabase, hcurrent], ?_⟩
    rintro store ⟨_, _, hsome, hsaved⟩
    cases hcurrent.symm.trans hsome
    cases hrun.symm.trans hsaved
  · rw [hrun] at hdatabase
    refine .inr ⟨⟨previous, database, hcurrent, hrun.trans ?_⟩, rfl⟩
    exact congrArg (Prod.mk _) (congrArg (Workspace.mk · saved.store) hdatabase)

/-! ## Opening a database -/

/-- The named database is there, and the one in use is saved in a store to be left for it. -/
def IsLeftFor (session : Session) (name : Text) (store : Store) : Prop :=
  session.databaseExists name = true ∧ session.IsSavedIn store

/-- An opening that fails keeps the database in use if and only if that is not left for the new
one.  If it is, it has been saved, no database is in use, and what failed was to read the new
metadata. -/
theorem failed_use_keeps_current_iff (session : Session) (name : Text) :
    (useDatabase name).Ensures session
      (fun _ later => later.databaseName = some name)
      fun failure later =>
        (later.current = session.current ↔ ¬ session.IsLeftFor name later.store) ∧
          (session.IsLeftFor name later.store → later.current = none ∧
            ((Files.readMetadata (Database.metadataPlace (session.directoryOf name))).runOn
              later.store).1 >>= schemasOf = .error failure) := by
  cases hexists : session.databaseExists name with
  | false =>
      have hstays : ¬ session.IsLeftFor name session.store := by simp [IsLeftFor, hexists]
      rw [Ensures, runOn_useDatabase_of_missing hexists]
      exact ⟨iff_of_true rfl hstays, fun hleft => absurd hleft hstays⟩
  | true =>
      rw [Ensures, runOn_useDatabase hexists]
      rcases hclose : close.runOn session with ⟨failure | _, closed⟩
      · obtain ⟨hkept, hunsaved⟩ := (ensures_close_saves session).of_error hclose
        have hstays : ¬ session.IsLeftFor name closed.store := fun hleft =>
          hunsaved closed.store hleft.2
        exact ⟨iff_of_true hkept hstays, fun hleft => absurd hleft hstays⟩
      · cases hread : ((Files.readMetadata (Database.metadataPlace
            (session.directoryOf name))).runOn closed.store).1 >>= schemasOf with
        | ok schemas =>
            simp only [hread]
            rfl
        | error failure =>
            simp only [hread]
            obtain ⟨hnone, rfl⟩ | ⟨hsaved, hclosed⟩ := (ensures_close_saves session).of_ok hclose
            · have hstays : ¬ closed.IsLeftFor name closed.store := by
                rintro ⟨-, previous, database, hsome, -⟩
                cases hnone.symm.trans hsome
              exact ⟨iff_of_true rfl hstays, fun hleft => absurd hleft hstays⟩
            · have hnone : closed.current = none := by rw [hclosed, left]
              obtain ⟨previous, database, hsome, -⟩ := id hsaved
              refine ⟨iff_of_false ?_ (not_not_intro ⟨hexists, hsaved⟩), fun _ => ⟨hnone, trivial⟩⟩
              rw [hnone, hsome]
              simp

def withTornMetadata : Session :=
  let session := after "r".toList firstTable
  { session with
    store := (session.store.insert [['b']] .directory).insert [['b'], Database.metadataName]
      (.file (.text ['\x7b'])) }

/-- The opening of the other one is reported to have failed, and no database is in use. -/
theorem withTornMetadata_loses_current :
    withTornMetadata.databaseName = some ['d'] ∧
      ((useDatabase ['b']).runOn withTornMetadata).1.mapError Failure.errorClass =
        .error (.inl .storage) ∧
      ((useDatabase ['b']).runOn withTornMetadata).2.databaseName = none := by
  decide +kernel

end Session

end Relbase
