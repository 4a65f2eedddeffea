import Relbase.Proofs.Session.Durability
import Relbase.Proofs.Session.Writability

/-!
# Altering a table

A command that alters a table leaves in memory what its action on the table leaves, whether it
succeeds or fails.  It fails as the action fails, before anything is written; if the action
succeeds, the command fails only where the database in use cannot be saved.
-/

namespace Relbase

open Relbase.Action

/-! ## Databases that can be saved -/

/-- No counter has too many digits, and every loaded table has a row file that can be. -/
structure Database.IsSavable (path name : Text) (database : Database) : Prop where
  counted : AllCounted database.schemas
  writable : database.IsWritable path name

theorem Database.allCounted_iff {database : Database} :
    AllCounted database.schemas ↔
      ∀ key counter, database.counter? key = some counter → Text.isOversized counter = false := by
  constructor
  · intro hcounted key counter hcounter
    obtain ⟨found, hfound, rfl⟩ := Option.map_eq_some_iff.1 hcounter
    exact hcounted (key, found.schema)
      (List.mem_map_of_mem (OrderedMap.get?_eq_some_iff.1 hfound))
  · intro hcounters entry hentry
    exact hcounters entry.1 entry.2.nextId (Workspace.counter?_of_mem_schemas hentry)

namespace Workspace

variable {path name spelled : Text} {workspace : Workspace} {table changed : Table}

theorem isWritable_registered_iff (h : workspace.IsSound path name)
    (htable : workspace.tableOf spelled = .ok table) :
    (workspace.registered spelled.lower (.ofTable changed)).database.IsWritable path name ↔
      workspace.database.IsWritable path name := by
  constructor
  · rintro hwritable ⟨key, loaded⟩ hloaded
    by_cases hkey : spelled.lower = key
    · apply hwritable (key, changed)
      rw [mem_loadedTables, Workspace.registered, OrderedMap.get?_put, if_pos hkey]
    · apply hwritable (key, loaded)
      rw [mem_loadedTables, Workspace.registered, OrderedMap.get?_put, if_neg hkey]
      exact mem_loadedTables.1 hloaded
  · intro hwritable
    exact isWritable_registered hwritable (h.usable_of_tableOf hwritable htable)

theorem isSavable_registered_iff (h : workspace.IsSound path name)
    (htable : workspace.tableOf spelled = .ok table)
    (hchanged : changed.schema.nextId = table.schema.nextId) :
    (workspace.registered spelled.lower (.ofTable changed)).database.IsSavable path name ↔
      workspace.database.IsSavable path name := by
  have hcounted : AllCounted (workspace.registered spelled.lower (.ofTable changed)).database.schemas ↔
      AllCounted workspace.database.schemas := by
    rw [Database.allCounted_iff, Database.allCounted_iff, h.counter?_registered_eq htable hchanged]
  have hwritable : (workspace.registered spelled.lower (.ofTable changed)).database.IsWritable path
      name ↔ workspace.database.IsWritable path name := isWritable_registered_iff h htable
  exact ⟨fun hsavable => ⟨hcounted.1 hsavable.counted, hwritable.1 hsavable.writable⟩,
    fun hsavable => ⟨hcounted.2 hsavable.counted, hwritable.2 hsavable.writable⟩⟩

end Workspace

namespace Session

variable {path spelled : Text} {session : Session} {table : Table}

def IsSavable (path : Text) (session : Session) : Prop :=
  ∀ name database, session.current = some (name, database) → database.IsSavable path name

/-! ## Tables in use -/

theorem tableOf_entered {name : Text} {workspace : Workspace}
    (h : workspace.database.tables.get? spelled.lower = some (.ofTable table)) :
    (session.entered name workspace).tableOf spelled = .ok table :=
  Workspace.tableOf_loaded h

theorem isSavable_iff (path : Text) {name : Text} {database : Database}
    (hcurrent : session.current = some (name, database)) :
    session.IsSavable path ↔ database.IsSavable path name := by
  constructor
  · exact fun hsavable => hsavable name database hcurrent
  · intro hsavable other found hfound
    rw [hcurrent] at hfound
    cases hfound
    exact hsavable

/-! ## Commands -/

/-- How a command ends that acts on a table, and what it leaves of it. -/
structure Ends (path spelled : Text) (session : Session) (before : Table)
    (acted : Except Failure Unit × Table) (outcome : Except Failure (Option ResultSet))
    (later : Session) : Prop where
  table : later.tableOf spelled = .ok acted.2
  refused : ∀ failure, acted.1 = .error failure →
    outcome = .error failure ∧ later.store = session.store
  saved : acted.1 = .ok () → acted.2.schema.nextId = before.schema.nextId →
    ((∃ failure, outcome = .error failure) ↔ ¬ session.IsSavable path)

theorem Changes.ends {action : Action Table Unit} {outcome : Except Failure Unit}
    {later : Session}
    (hchanges : Changes path session (Workspace.onTable spelled action) outcome later)
    (h : session.IsSound path) (htable : session.tableOf spelled = .ok table) :
    Ends path spelled session table (action.runOn table) (outcome.map fun _ => none) later := by
  obtain ⟨name, database, hcurrent, hfound⟩ := exists_current_of_tableOf htable
  have hworkspace := h.current name database hcurrent
  have hacted : (Workspace.onTable spelled action).runOn ⟨database, session.store⟩ =
      ((action.runOn table).1, Workspace.registered ⟨database, session.store⟩ spelled.lower
        (.ofTable (action.runOn table).2)) := by
    rw [Workspace.runOn_onTable, Workspace.acted, hfound]
  have hregistered : (Workspace.registered ⟨database, session.store⟩ spelled.lower
      (.ofTable (action.runOn table).2)).database.tables.get? spelled.lower =
        some (.ofTable (action.runOn table).2) := by
    rw [Workspace.registered, OrderedMap.get?_put, if_pos rfl]
  have hsavable (hnext : (action.runOn table).2.schema.nextId = table.schema.nextId) :=
    (Workspace.isSavable_registered_iff hworkspace hfound hnext).trans
      (isSavable_iff path hcurrent).symm
  cases hchanges with
  | idle hnone => simp [hnone] at hcurrent
  | refused hentered hrun _ hstore =>
      rw [hcurrent] at hentered
      cases hentered
      rw [hacted, Prod.mk.injEq] at hrun
      obtain ⟨hfailure, rfl⟩ := hrun
      refine ⟨tableOf_entered hregistered, fun failure hother => ?_, fun hdone => ?_⟩
      · rw [hfailure] at hother
        cases hother
        exact ⟨rfl, hstore⟩
      · rw [hfailure] at hdone
        cases hdone
  | saved hentered hrun _ hsaves =>
      rw [hcurrent] at hentered
      cases hentered
      rw [hacted, Prod.mk.injEq] at hrun
      obtain ⟨hdone, rfl⟩ := hrun
      refine ⟨tableOf_entered (by rw [hsaves.database_eq]; exact hregistered),
        fun failure hfailure => ?_, fun _ hnext => ?_⟩
      · rw [hdone] at hfailure
        cases hfailure
      · have hcan := (hsavable hnext).1 ⟨hsaves.counted, hsaves.usable⟩
        refine iff_of_false ?_ (not_not_intro hcan)
        rintro ⟨_, hfailure⟩
        cases hfailure
  | unsaved hentered hrun _ hsaves _ _ =>
      rw [hcurrent] at hentered
      cases hentered
      rw [hacted, Prod.mk.injEq] at hrun
      obtain ⟨hdone, rfl⟩ := hrun
      obtain ⟨written, _, hlast⟩ := hsaves.written
      refine ⟨tableOf_entered ?_, fun failure hfailure => ?_, fun _ hnext => ?_⟩
      · rw [hlast, Workspace.withRows_database]
        exact hregistered
      · rw [hdone] at hfailure
        cases hfailure
      · refine iff_of_true ⟨_, rfl⟩ fun hcan => ?_
        obtain ⟨hcounted, hwritable⟩ := (hsavable hnext).2 hcan
        obtain ⟨entry, hloaded, hunusable⟩ := hsaves.unusable hcounted
        exact hunusable (hwritable entry hloaded)

theorem IsSound.ends (h : session.IsSound path) {command : Command}
    (hprintable : Spelling.Printable command) {action : Action Table Unit}
    (haction : command.changing = some (Workspace.onTable spelled action))
    (htable : session.tableOf spelled = .ok table) :
    Ends path spelled session table (action.runOn table) ((execute command).runOn session).1
      ((execute command).runOn session).2 := by
  obtain ⟨outcome, houtcome, hchanges⟩ := h.changes_execute hprintable haction
  rw [houtcome]
  exact hchanges.ends h htable

end Session

end Relbase
