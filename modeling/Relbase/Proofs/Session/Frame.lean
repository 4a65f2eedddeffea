import Relbase.Proofs.Session.Purity
import Relbase.Proofs.Session.Writability

/-!
# What a command leaves as it is

A command changes nothing in the store but the directory that it is about: that of the
database in use, of the database it closes, or of the database it names.  A change of a table
that succeeds writes the metadata and the row files of the loaded tables, and of the tables
in memory it changes no other one.
-/

namespace Relbase

open Relbase.Action

/-! ## Frames -/

def Store.ChangesOnly (allowed : Key → Prop) (store later : Store) : Prop :=
  ∀ key, later.get? key ≠ store.get? key → allowed key

/-- The keys under which a command may change the store of a session. -/
def Command.MayChange (session : Session) (key : Key) : Command → Prop
  | .select _ _ _ => False
  | .join _ _ _ _ => False
  | .createDatabase name => [name] <+: key
  | .dropDatabase name => [name] <+: key
  | .use _ => ∃ closed file, session.databaseName = some closed ∧ key = [closed, file]
  | _ => ∃ name file, session.databaseName = some name ∧ key = [name, file]

def Command.altered? : Command → Option Text
  | .addAttribute table _ => some table
  | .dropAttribute table _ => some table
  | .insert table _ => some table
  | .delete table _ => some table
  | .update table _ _ => some table
  | _ => none

theorem Command.changing_of_altered {command : Command} {table : Text}
    (h : command.altered? = some table) :
    ∃ action, command.changing = some (Workspace.onTable table action) := by
  cases command <;> cases h <;> exact ⟨_, rfl⟩

theorem Spelling.isLoweredName_of_altered {command : Command} (hprintable : Printable command)
    {table : Text} (h : command.altered? = some table) : IsLoweredName table := by
  cases command <;> cases h <;> exact hprintable.1

namespace Store

variable {store later : Store} {allowed : Key → Prop}

theorem changesOnly_of_eq (h : later = store) : ChangesOnly allowed store later :=
  fun _ hne => absurd (by rw [h]) hne

theorem changesOnly_of_keepsOthers {name : Text} (h : Workspace.KeepsOthers name store later) :
    ChangesOnly (fun key => ∃ file, key = [name, file]) store later := by
  intro key hne
  by_contra hkey
  exact hne (h key fun file heq => hkey ⟨file, heq⟩)

end Store

/-! ## The directory of a command -/

theorem Workspace.SavesPartly.keepsOthers {path name : Text} {workspace later : Workspace}
    (h : Workspace.SavesPartly path name workspace later) :
    Workspace.KeepsOthers name workspace.store later.store := by
  obtain ⟨written, _, rfl⟩ := h.written
  intro key hkey
  rw [get?_withRows_of_ne fun _ _ => hkey _, withMetadata, withFile, SortedMap.get?_insert,
    if_neg (Ne.symm (hkey _))]

namespace Session

open Workspace (KeepsOthers)

variable {path name : Text} {session later : Session}

/-- Nothing is changed but files of the database in use. -/
def ChangesInside (session : Session) (store : Store) : Prop :=
  session.store.ChangesOnly
    (fun key => ∃ name file, session.databaseName = some name ∧ key = [name, file]) store

theorem changesInside_of_eq {store : Store} (h : store = session.store) :
    session.ChangesInside store :=
  Store.changesOnly_of_eq h

theorem changesInside_of_keepsOthers {database : Database} {store : Store}
    (hcurrent : session.current = some (name, database))
    (h : KeepsOthers name session.store store) : session.ChangesInside store := by
  intro key hne
  obtain ⟨file, rfl⟩ := Store.changesOnly_of_keepsOthers h key hne
  exact ⟨name, file, databaseName_of_current hcurrent, rfl⟩

theorem Leaves.changesInside {store : Store} (hleaves : Leaves path session store) :
    session.ChangesInside store := by
  cases hleaves with
  | idle _ => exact changesInside_of_eq rfl
  | saved hcurrent hsaves => exact changesInside_of_keepsOthers hcurrent hsaves.keepsOthers

theorem Commits.changesInside (hcommits : Commits path session later) :
    session.ChangesInside later.store := by
  cases hcommits with
  | intro hcurrent hsteps hsaves =>
      exact changesInside_of_keepsOthers hcurrent fun key hkey =>
        (hsaves.keepsOthers key hkey).trans (hsteps.keepsOthers key hkey)

theorem Stalls.changesInside (hstalls : Stalls path session later) :
    session.ChangesInside later.store := by
  cases hstalls with
  | intro hcurrent hsteps hsaves =>
      exact changesInside_of_keepsOthers hcurrent fun key hkey =>
        (hsaves.keepsOthers key hkey).trans (hsteps.keepsOthers key hkey)

theorem HasDirectory.changesOnly {store : Store} (hhas : HasDirectory session.store name store) :
    session.store.ChangesOnly ([name] <+: ·) store := by
  intro key hne
  cases hhas with
  | found _ => exact absurd rfl hne
  | made _ =>
      rw [SortedMap.get?_insert] at hne
      split at hne
      · rename_i heq
        exact heq ▸ List.prefix_rfl
      · exact absurd rfl hne

theorem HasDirectory.changesOnly_insert {store : Store} {file : Text} {entry : Entry}
    (hhas : HasDirectory session.store name store) :
    session.store.ChangesOnly ([name] <+: ·) (store.insert [name, file] entry) := by
  intro key hne
  rw [SortedMap.get?_insert] at hne
  split at hne
  · rename_i heq
    exact heq ▸ ⟨[file], rfl⟩
  · exact hhas.changesOnly key hne

theorem ensures_execute_unchanging_frame (h : session.IsSound path) {command : Command}
    (hprintable : Spelling.Printable command) (haction : command.changing = none) :
    (execute command).Ensures session
      (fun _ later => session.store.ChangesOnly (command.MayChange session) later.store)
      fun _ later => session.store.ChangesOnly (command.MayChange session) later.store := by
  cases command
  case createTable | dropTable | addAttribute | dropAttribute | insert | delete | update =>
    cases haction
  case use database =>
    refine ensures_discard none ((ensures_useDatabase h
      (isIdentifier_of_isLoweredName hprintable)).mono (fun _ later hdone => ?_)
        fun _ later hfailed => ?_)
    · obtain ⟨store, schemas, hleaves, _, _, _, rfl⟩ := hdone
      exact hleaves.changesInside
    · rcases hfailed with rfl | hstalls | ⟨store, hleaves, rfl⟩
      · exact changesInside_of_eq rfl
      · exact hstalls.changesInside
      · exact hleaves.changesInside
  case createDatabase database =>
    refine ensures_discard none ((ensures_createDatabase h
      (isIdentifier_of_isLoweredName hprintable)).mono (fun _ later hdone => ?_)
        fun _ later hfailed => ?_)
    · obtain ⟨_, _, store, hhas, rfl⟩ := hdone
      exact hhas.changesOnly_insert
    · rcases hfailed with rfl | ⟨_, store, hhas, rfl⟩
      · exact Store.changesOnly_of_eq rfl
      · exact hhas.changesOnly
  case dropDatabase database =>
    refine ensures_discard none ((ensures_deleteDatabase h
      (isIdentifier_of_isLoweredName hprintable)).mono (fun _ later hdone => ?_)
        fun _ later hfailed => Store.changesOnly_of_eq (by rw [hfailed]))
    intro key hne
    rw [hdone, get?_without] at hne
    split at hne
    · rename_i hprefix
      exact List.isPrefixOf_iff_prefix.1 hprefix
    · exact absurd rfl hne
  case select columns table condition =>
    exact (ensures_select h columns table condition).mono
      (fun _ _ hworks => Store.changesOnly_of_eq hworks.store_eq)
      fun _ _ hworks => Store.changesOnly_of_eq hworks.store_eq
  case join leftTable rightTable leftOn rightOn =>
    exact (ensures_join h leftTable rightTable leftOn rightOn).mono
      (fun _ _ hworks => Store.changesOnly_of_eq hworks.store_eq)
      fun _ _ hworks => Store.changesOnly_of_eq hworks.store_eq

theorem mayChange_of_changing {command : Command} {action : Action Workspace Unit}
    (haction : command.changing = some action) (session : Session) (key : Key) :
    command.MayChange session key =
      ∃ name file, session.databaseName = some name ∧ key = [name, file] := by
  cases command <;> cases haction <;> rfl

theorem changesOnly_execute (h : session.IsSound path) {command : Command}
    (hprintable : Spelling.Printable command) :
    session.store.ChangesOnly (command.MayChange session)
      ((execute command).runOn session).2.store := by
  cases haction : command.changing with
  | none => exact (ensures_execute_unchanging_frame h hprintable haction).finally
  | some action =>
      have hinside : session.ChangesInside ((execute command).runOn session).2.store := by
        rw [execute_of_changing haction]
        exact (ensures_discard none
          ((ensures_change h (takesSteps_changing hprintable haction)).mono
            (fun _ _ hcommits => hcommits.changesInside) fun _ _ hfailed => hfailed.elim
              (fun hworks => changesInside_of_eq hworks.store_eq) (·.changesInside))).finally
      intro key hne
      rw [mayChange_of_changing haction]
      exact hinside key hne

/-! ## Altered tables -/

/-- After a table of the database in use was altered, the metadata file and the row files of
loaded tables may be other ones, and the other tables are in memory what they were. -/
structure Alters (table name : Text) (database : Database) (store : Store) (last : Database)
    (later : Store) : Prop where
  changed : store.ChangesOnly
    (fun key => key = [name, Database.metadataName] ∨
      ∃ entry ∈ last.loadedTables, key = [name, Database.rowFileName entry.1]) later
  unloaded : ∀ key, (∀ loaded, (key, loaded) ∉ last.loadedTables) →
    later.get? [name, Database.rowFileName key] = store.get? [name, Database.rowFileName key]
  others : ∀ key, key ≠ table → last.tables.get? key = database.tables.get? key

theorem Alters.of_saves {table : Text} {database : Database} {store : Store} {changed : Table}
    {last : Workspace} (hsaves : Workspace.Saves path name
      (Workspace.registered ⟨database, store⟩ table (.ofTable changed)) last) :
    Alters table name database store last.database last.store := by
  have hdatabase := hsaves.database_eq
  have hkept {key : Key} (hmetadata : key ≠ [name, Database.metadataName])
      (hrows : ∀ entry ∈ last.database.loadedTables,
        key ≠ [name, Database.rowFileName entry.1]) : last.store.get? key = store.get? key :=
    hsaves.get?_other hmetadata (hdatabase ▸ hrows)
  refine ⟨fun key hne => ?_, fun key hkey => ?_, fun key hkey => ?_⟩
  · by_contra hno
    simp only [not_or, not_exists, not_and] at hno
    exact hne (hkept hno.1 hno.2)
  · refine hkept (by simpa using rowFileName_ne_metadataName key) fun entry hentry heq => ?_
    have hsame : key = entry.1 := rowFileName_inj (by simpa using heq)
    exact hkey entry.2 (hsame ▸ hentry)
  · rw [hdatabase, Workspace.registered, OrderedMap.get?_put, if_neg (Ne.symm hkey)]

def AltersOnly (table : Text) (session later : Session) : Prop :=
  ∃ name database last, session.current = some (name, database) ∧
    later.current = some (name, last) ∧ Alters table name database session.store last later.store

theorem altersOnly_execute (h : session.IsSound path) {command : Command}
    (hprintable : Spelling.Printable command) {table : Text}
    (htable : command.altered? = some table) {result : Option ResultSet}
    (hrun : (execute command).runOn session = (.ok result, later)) :
    AltersOnly table session later := by
  obtain ⟨action, haction⟩ := Command.changing_of_altered htable
  obtain ⟨spelled, -, rfl⟩ := Spelling.isLoweredName_of_altered hprintable htable
  obtain ⟨name, database, workspace, last, hcurrent, hdone, hsaves, rfl⟩ :=
    h.exists_saved hprintable haction hrun
  obtain ⟨_, _, _, _, rfl⟩ := Workspace.runOn_onTable_eq_ok.1 hdone
  rw [Text.lower_lower] at hsaves
  exact ⟨name, database, last.database, hcurrent, rfl, .of_saves hsaves⟩

/-! ## Runs -/

/-- Failing commands change no file exactly as long as the database in use can be saved.
Every command changes nothing outside the directory it is about, and a command that alters a
table changes no other one. -/
theorem executeText_frame (path : Text) (events : List Event) :
    (events.length + 2 < Text.digitBound →
      ((∀ text failure, ((executeText text).runOn (after path events)).1 = .error failure →
          (after path events).store.SameFiles (after path (events ++ [.query text])).store) ↔
        (after path events).IsWritable path)) ∧
    ∀ text command, Command.ofText text = .ok command →
      (after path events).store.ChangesOnly (command.MayChange (after path events))
        (after path (events ++ [.query text])).store ∧
      ∀ table result, command.altered? = some table →
        ((executeText text).runOn (after path events)).1 = .ok result →
          AltersOnly table (after path events) (after path (events ++ [.query text])) := by
  have hsound := isSound_after path events
  refine ⟨sameFiles_iff_isWritable path events, fun text command hcommand => ?_⟩
  have hprintable := Spelling.printable_of_ofText hcommand
  have hexecute : executeText text = execute command := by rw [executeText, hcommand]
  rw [after_append, react, hexecute]
  exact ⟨changesOnly_execute hsound hprintable, fun table result htable hresult =>
    altersOnly_execute hsound hprintable htable (Prod.ext hresult rfl)⟩

theorem firstTable_frame :
    ((∀ text failure, ((executeText text).runOn (after "r".toList firstTable)).1 = .error failure →
        (after "r".toList firstTable).store.SameFiles
          (after "r".toList (firstTable ++ [.query text])).store) ↔
      (after "r".toList firstTable).IsWritable "r".toList) ∧
    AltersOnly ['t'] (after "r".toList firstTable)
      (after "r".toList (firstTable ++ [.query "INSERT INTO t VALUES ('x');".toList])) := by
  have hok : ((executeText "INSERT INTO t VALUES ('x');".toList).runOn
      (after "r".toList firstTable)).1.isOk = true := by decide +kernel
  obtain ⟨result, hresult⟩ := exists_of_isOk hok
  obtain ⟨hfailures, hframe⟩ := executeText_frame "r".toList firstTable
  exact ⟨hfailures (Nat.lt_of_lt_of_le (by decide) Text.ten_le_digitBound),
    (hframe "INSERT INTO t VALUES ('x');".toList (.insert ['t'] [['x']]) (by decide +kernel)).2
      ['t'] result rfl hresult⟩

/-- A table stays in memory that was refused a row file when it was created. -/
def refusedTable : List Event :=
  firstTable ++ [.query ("CREATE TABLE ".toList ++ overlongName ++ " (a);".toList)]

/-- Another table cannot be created then, but its row file is. -/
theorem refusedTable_failure_writes :
    ∃ failure, ((executeText "CREATE TABLE u (b);".toList).runOn
        (after "r".toList refusedTable)).1 = .error failure ∧
      ¬ (after "r".toList refusedTable).store.SameFiles
        (after "r".toList (refusedTable ++ [.query "CREATE TABLE u (b);".toList])).store := by
  obtain ⟨hfailed, hbefore, hlater⟩ :
      ((executeText "CREATE TABLE u (b);".toList).runOn
          (after "r".toList refusedTable)).1.isOk = false ∧
        (after "r".toList refusedTable).store.get? [['d'], "u.tab".toList] = none ∧
          (after "r".toList (refusedTable ++ [.query "CREATE TABLE u (b);".toList])).store.get?
            [['d'], "u.tab".toList] = some (.file (.text "id\tb\n".toList)) := by decide +kernel
  cases hrun : ((executeText "CREATE TABLE u (b);".toList).runOn
    (after "r".toList refusedTable)).1 with
  | ok result =>
      rw [hrun] at hfailed
      cases hfailed
  | error failure =>
      refine ⟨failure, rfl, fun hsame => ?_⟩
      have hfile := (hsame _ _).1 hlater
      rw [hbefore] at hfile
      cases hfile

end Session

end Relbase
