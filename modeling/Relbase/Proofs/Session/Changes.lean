import Relbase.Proofs.Loading
import Relbase.Proofs.Session.Run

/-!
# Changes of a database in use

Every command that changes a database acts on the workspace and then saves it.  It is
refused before anything is written, or saved, or what was written last is refused; these
failures of writing can be told from the others.
-/

namespace Relbase

open Relbase.Action

/-! ## Failures of saving -/

namespace Workspace

variable {path name : Text} {workspace : Workspace}

theorem ensures_writeTable_refusal (h : workspace.IsSound path name) {key : Text}
    (hkey : IsIdentifier key) (table : Table) :
    (writeTable key table).Ensures workspace (fun _ _ => True)
      fun failure _ => failure.IsReported ∧ failure.isOfWriting = true := by
  simp only [writeTable, ensures_bind, ensures_get]
  rw [h.rowFilePlace_eq, onStore, ensures_within]
  exact (Files.ensures_change_refusal (h.isMalformed_rowFile hkey) _).mono (fun _ _ _ => trivial)
    fun _ _ hrefused => ⟨hrefused.isReported, hrefused.isOfWriting⟩

theorem ensures_writeTables_refusal (h : workspace.IsSound path name) {tables : List (Text × Table)}
    (hkeys : ∀ entry ∈ tables, IsIdentifier entry.1) :
    (writeTables tables).Ensures workspace (fun _ _ => True)
      fun failure _ => failure.IsReported ∧ failure.isOfWriting = true := by
  induction tables generalizing workspace with
  | nil => exact trivial
  | cons entry rest ih =>
      obtain ⟨hkey, hrest⟩ := List.forall_mem_cons.1 hkeys
      rw [writeTables, ensures_bind]
      refine ((ensures_writeTable h hkey entry.2).and
        (ensures_writeTable_refusal h hkey entry.2)).mono (fun _ later hwritten => ?_)
          fun _ _ hrefused => hrefused.2
      obtain ⟨⟨husable, rfl⟩, _⟩ := hwritten
      exact ih (h.withFile hkey.isStep_rowFileName husable
        fun heq => absurd heq (rowFileName_ne_metadataName entry.1)) hrest

theorem ensures_save_refusal (h : workspace.IsSound path name) :
    save.Ensures workspace (fun _ _ => True)
      fun failure _ => failure.isOfWriting = true ∧
        (AllCounted workspace.database.schemas → failure.IsReported) := by
  simp only [save, Files.writeMetadata, ensures_bind, ensures_get, onStore, ensures_within]
  rw [h.metadataPlace_eq, Database.metadata_eq]
  refine (h.store.ensures_writeText h.identifier h.parent isStep_metadataName _ _).mono
    (fun _ later hwritten => ?_) fun _ _ hfailed => absurd h.usable_metadata hfailed.1
  obtain ⟨_, rfl⟩ := hwritten
  split
  · rename_i hgap
    exact ⟨rfl, fun hcounted =>
      absurd (h.soundSchemas.counted_iff.1 hcounted) (by simpa using hgap)⟩
  · exact (ensures_writeTables_refusal h.withMetadata h.isIdentifier_loaded).mono (fun _ _ _ => trivial)
      fun _ _ hrefused => ⟨hrefused.2, fun _ => hrefused.1⟩

end Workspace

/-! ## Changes -/

namespace Session

variable {path name : Text} {session later : Session}

theorem databaseName_of_current {database : Database}
    (hcurrent : session.current = some (name, database)) : session.databaseName = some name := by
  rw [databaseName, hcurrent]
  rfl

theorem runOn_onWorkspace {α : Type} {database : Database}
    (hcurrent : session.current = some (name, database)) (action : Action Workspace α) :
    (onWorkspace action).runOn session =
      ((action.runOn ⟨database, session.store⟩).1,
        session.entered name (action.runOn ⟨database, session.store⟩).2) := by
  rw [onWorkspace, runOn_get_bind, hcurrent]
  rfl

theorem runOn_onWorkspace_of_none {α : Type} (hcurrent : session.current = none)
    (action : Action Workspace α) :
    (onWorkspace action).runOn session = (.error (.reported .noDatabaseInUse), session) := by
  rw [onWorkspace, runOn_get_bind, hcurrent]
  rfl

/-- How a change of the database in use ends. -/
inductive Changes (path : Text) (session : Session) (action : Action Workspace Unit) :
    Except Failure Unit → Session → Prop
  | idle (hcurrent : session.current = none) :
      Changes path session action (.error (.reported .noDatabaseInUse)) session
  | refused {name : Text} {database : Database} {workspace : Workspace} {failure : Failure}
      (hcurrent : session.current = some (name, database))
      (hrun : action.runOn ⟨database, session.store⟩ = (.error failure, workspace))
      (hsteps : Workspace.Steps path name ⟨database, session.store⟩ workspace)
      (hstore : workspace.store = session.store) :
      Changes path session action (.error failure) (session.entered name workspace)
  | saved {name : Text} {database : Database} {workspace last : Workspace}
      (hcurrent : session.current = some (name, database))
      (hrun : action.runOn ⟨database, session.store⟩ = (.ok (), workspace))
      (hsteps : Workspace.Steps path name ⟨database, session.store⟩ workspace)
      (hsaves : Workspace.Saves path name workspace last) :
      Changes path session action (.ok ()) (session.entered name last)
  | unsaved {name : Text} {database : Database} {workspace last : Workspace} {failure : Failure}
      (hcurrent : session.current = some (name, database))
      (hrun : action.runOn ⟨database, session.store⟩ = (.ok (), workspace))
      (hsteps : Workspace.Steps path name ⟨database, session.store⟩ workspace)
      (hsaves : Workspace.SavesPartly path name workspace last)
      (hwriting : failure.isOfWriting = true)
      (hreported : AllCounted workspace.database.schemas → failure.IsReported) :
      Changes path session action (.error failure) (session.entered name last)

theorem IsSound.changes (h : session.IsSound path) {action : Action Workspace Unit}
    (haction : TakesSteps path action) :
    Changes path session action ((onWorkspace action >>= fun _ => save).runOn session).1
      ((onWorkspace action >>= fun _ => save).runOn session).2 := by
  rw [runOn_bind]
  cases hcurrent : session.current with
  | none =>
      rw [runOn_onWorkspace_of_none hcurrent]
      exact .idle hcurrent
  | some current =>
      obtain ⟨name, database⟩ := current
      have hsteps := haction name _ (h.current name database hcurrent)
      rw [runOn_onWorkspace hcurrent]
      rcases hrun : action.runOn ⟨database, session.store⟩ with ⟨failure | _, workspace⟩
      · obtain ⟨hsteps, hstore⟩ := hsteps.of_error hrun
        exact .refused hcurrent hrun hsteps hstore
      · have hsteps := hsteps.of_ok hrun
        have hworkspace := hsteps.isSound (h.current name database hcurrent)
        have hsave : save.runOn (session.entered name workspace) =
            ((Workspace.save.runOn workspace).1,
              session.entered name (Workspace.save.runOn workspace).2) := rfl
        have hsaves := (Workspace.ensures_save hworkspace).and
          (Workspace.ensures_save_refusal hworkspace)
        simp only [hsave]
        rcases hlast : Workspace.save.runOn workspace with ⟨failure | _, last⟩
        · obtain ⟨⟨hunusable, hwritten⟩, hwriting, hreported⟩ := hsaves.of_error hlast
          exact .unsaved hcurrent hrun hsteps ⟨hunusable, hwritten⟩ hwriting hreported
        · obtain ⟨⟨hcounted, husable, hlast⟩, _⟩ := hsaves.of_ok hlast
          exact .saved hcurrent hrun hsteps ⟨hcounted, husable, hlast⟩

/-! ## Commands -/

theorem IsSound.changes_execute (h : session.IsSound path) {command : Command}
    (hprintable : Spelling.Printable command) {action : Action Workspace Unit}
    (haction : command.changing = some action) :
    ∃ outcome, ((execute command).runOn session).1 = outcome.map (fun _ => none) ∧
      Changes path session action outcome ((execute command).runOn session).2 := by
  have hchanges := h.changes (takesSteps_changing hprintable haction)
  rw [execute_of_changing haction, runOn_bind]
  rcases hrun : (onWorkspace action >>= fun _ => save).runOn session with ⟨outcome, later⟩
  rw [hrun] at hchanges
  exact ⟨outcome, by cases outcome <;> rfl, by cases outcome <;> exact hchanges⟩

theorem IsSound.exists_saved (h : session.IsSound path) {command : Command}
    (hprintable : Spelling.Printable command) {action : Action Workspace Unit}
    (haction : command.changing = some action) {result : Option ResultSet} {later : Session}
    (hrun : (execute command).runOn session = (.ok result, later)) :
    ∃ name database workspace last, session.current = some (name, database) ∧
      action.runOn ⟨database, session.store⟩ = (.ok (), workspace) ∧
      Workspace.Saves path name workspace last ∧ later = session.entered name last := by
  obtain ⟨outcome, houtcome, hchanges⟩ := h.changes_execute hprintable haction
  rw [hrun] at houtcome hchanges
  cases hchanges with
  | idle _ => cases houtcome
  | refused _ _ _ _ => cases houtcome
  | unsaved _ _ _ _ _ _ => cases houtcome
  | saved hcurrent hdone _ hsaves => exact ⟨_, _, _, _, hcurrent, hdone, hsaves, rfl⟩

end Session

end Relbase
