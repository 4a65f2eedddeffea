import Relbase.Execution
import Relbase.Proofs.Query.RoundTrip
import Relbase.Proofs.Workspace

/-!
# What the actions of a session ensure

A session is sound if its store is orderly and its database in use makes a sound
workspace.  The commands on a database in use are steps of its workspace, of which a change
is followed by saving; the other commands open, create and delete whole databases.
-/

namespace Relbase

open Relbase.Action

def Command.IsChange : Command → Prop
  | .createTable _ _ _ => True
  | .dropTable _ => True
  | .addAttribute _ _ => True
  | .dropAttribute _ _ => True
  | .insert _ _ => True
  | .delete _ _ => True
  | .update _ _ _ => True
  | _ => False

def Command.changing : Command → Option (Action Workspace Unit)
  | .createTable table names displayName =>
      some (Workspace.createTable (if displayName = [] then table else displayName) names)
  | .dropTable table => some (Workspace.dropTable table)
  | .addAttribute table name => some (Workspace.onTable table (Table.addAttribute name))
  | .dropAttribute table name => some (Workspace.onTable table (Table.dropAttribute name))
  | .insert table values =>
      some (Workspace.onTable table do
        let _ ← Table.insert values)
  | .delete table condition =>
      some (Workspace.onTable table do
        let ids ← Action.ofOutcome ((← get).select condition)
        let _ ← Table.deleteRecords ids)
  | .update table assignments condition =>
      some (Workspace.onTable table do
        let ids ← Action.ofOutcome ((← get).select condition)
        Table.updateRecords assignments ids)
  | _ => none

theorem Command.IsChange.exists_changing {command : Command} (h : command.IsChange) :
    ∃ action, command.changing = some action := by
  cases command <;> first | exact ⟨_, rfl⟩ | cases h

/-! ## Steps of a workspace -/

namespace Workspace

inductive Step (path name : Text) (workspace : Workspace) : Workspace → Prop
  | held {key : Text} {table : Table} (htable : table.IsSound key)
      (hregistered : (workspace.database.tables.get? key).isSome = true) :
      Step path name workspace (workspace.registered key (.ofTable table))
  | created {key : Text} {table : Table} (htable : table.IsSound key)
      (hnew : workspace.database.tables.get? key = none)
      (husable : (fileIn path name (Database.rowFileName key)).IsUsable) :
      Step path name workspace ((workspace.registered key (.ofTable table)).withFile name
        (Database.rowFileName key) (rowText table))
  | unwritten {key : Text} {table : Table} (htable : table.IsSound key)
      (hnew : workspace.database.tables.get? key = none)
      (hunusable : ¬ (fileIn path name (Database.rowFileName key)).IsUsable) :
      Step path name workspace (workspace.registered key (.ofTable table))
  | dropped {key : Text} (hregistered : (workspace.database.tables.get? key).isSome = true) :
      Step path name workspace
        ((workspace.unregistered key).withoutFile name (Database.rowFileName key))
  | missing {key : Text} (hregistered : (workspace.database.tables.get? key).isSome = true)
      (hmissing : workspace.store.get? [name, Database.rowFileName key] = none) :
      Step path name workspace (workspace.unregistered key)

inductive Steps (path name : Text) (workspace : Workspace) : Workspace → Prop
  | refl : Steps path name workspace workspace
  | tail {middle later : Workspace} (hsteps : Steps path name workspace middle)
      (hstep : Step path name middle later) : Steps path name workspace later

theorem Steps.trans {path name : Text} {first second third : Workspace}
    (hfirst : Steps path name first second) (hsecond : Steps path name second third) :
    Steps path name first third := by
  induction hsecond with
  | refl => exact hfirst
  | tail _ hstep ih => exact ih.tail hstep

structure Saves (path name : Text) (workspace later : Workspace) : Prop where
  counted : AllCounted workspace.database.schemas
  usable : ∀ entry ∈ workspace.database.loadedTables,
    (fileIn path name (Database.rowFileName entry.1)).IsUsable
  eq : later = (workspace.withMetadata name).withRows name workspace.database.loadedTables

structure SavesPartly (path name : Text) (workspace later : Workspace) : Prop where
  unusable : AllCounted workspace.database.schemas →
    ∃ entry ∈ workspace.database.loadedTables,
      ¬ (fileIn path name (Database.rowFileName entry.1)).IsUsable
  written : ∃ written, (∀ entry ∈ written, entry ∈ workspace.database.loadedTables ∧
    (fileIn path name (Database.rowFileName entry.1)).IsUsable) ∧
      later = (workspace.withMetadata name).withRows name written

variable {path name : Text} {workspace later : Workspace}

theorem IsSound.withoutFile (h : workspace.IsSound path name) {key : Text} :
    (workspace.withoutFile name (Database.rowFileName key)).IsSound path name where
  store := h.store.eraseFile
  identifier := h.identifier
  directory := h.directory
  tables := h.tables
  metadata := by
    rw [Workspace.withoutFile, SortedMap.get?_erase, if_neg]
    · exact h.metadata
    · simpa using rowFileName_ne_metadataName key

theorem Step.isSound (hstep : Step path name workspace later) (h : workspace.IsSound path name) :
    later.IsSound path name := by
  cases hstep with
  | held htable _ => exact h.registered (Registration.isSound_ofTable htable)
  | created htable _ husable =>
      exact (h.registered (Registration.isSound_ofTable htable)).withFile
        htable.schema.key.1.isStep_rowFileName husable
        fun heq => absurd heq (rowFileName_ne_metadataName _)
  | unwritten htable _ _ => exact h.registered (Registration.isSound_ofTable htable)
  | dropped _ => exact (h.unregistered _).withoutFile
  | missing _ _ => exact h.unregistered _

theorem Steps.isSound (hsteps : Steps path name workspace later)
    (h : workspace.IsSound path name) : later.IsSound path name := by
  induction hsteps with
  | refl => exact h
  | tail _ hstep ih => exact hstep.isSound ih

theorem IsSound.saved (h : workspace.IsSound path name) {tables : List (Text × Table)}
    (htables : ∀ entry ∈ tables, entry ∈ workspace.database.loadedTables ∧
      (fileIn path name (Database.rowFileName entry.1)).IsUsable) :
    ((workspace.withMetadata name).withRows name tables).IsSound path name :=
  h.withMetadata.withRows (fun entry hentry => ((h.loaded entry (htables entry hentry).1).schema.key).1)
    fun entry hentry => (htables entry hentry).2

theorem Saves.isSound (hsaves : Saves path name workspace later) (h : workspace.IsSound path name) :
    later.IsSound path name :=
  hsaves.eq ▸ h.saved fun entry hentry => ⟨hentry, hsaves.usable entry hentry⟩

theorem SavesPartly.isSound (hsaves : SavesPartly path name workspace later)
    (h : workspace.IsSound path name) : later.IsSound path name := by
  obtain ⟨tables, htables, rfl⟩ := hsaves.written
  exact h.saved htables

end Workspace

/-! ## Sound sessions -/

namespace Session

structure IsSound (path : Text) (session : Session) : Prop where
  root : session.root = .root path
  store : session.store.IsOrderly path
  current : ∀ name database, session.current = some (name, database) →
    Workspace.IsSound path name ⟨database, session.store⟩

def entered (session : Session) (name : Text) (workspace : Workspace) : Session :=
  { session with store := workspace.store, current := some (name, workspace.database) }

def left (session : Session) (store : Store) : Session :=
  { session with store := store, current := none }

variable {path name : Text} {session : Session}

theorem isSound_start (path : Text) : (start path Store.emptyRoot).IsSound path where
  root := rfl
  store := Store.isOrderly_emptyRoot path
  current name database h := by cases h

theorem IsSound.entered (h : session.IsSound path) {workspace : Workspace}
    (hworkspace : workspace.IsSound path name) : (session.entered name workspace).IsSound path where
  root := h.root
  store := hworkspace.store
  current other database hcurrent := by
    cases hcurrent
    exact hworkspace

theorem IsSound.left (h : session.IsSound path) {store : Store} (hstore : store.IsOrderly path) :
    (session.left store).IsSound path where
  root := h.root
  store := hstore
  current other database hcurrent := by cases hcurrent

/-! ## The database in use -/

theorem ensures_onWorkspace {α : Type} {action : Action Workspace α} {done : α → Session → Prop}
    {failed : Failure → Session → Prop}
    (hnone : session.current = none → failed (.reported .noDatabaseInUse) session)
    (hsome : ∀ name database, session.current = some (name, database) →
      action.Ensures ⟨database, session.store⟩
        (fun result later => done result (session.entered name later))
        fun failure later => failed failure (session.entered name later)) :
    (onWorkspace action).Ensures session done failed := by
  simp only [onWorkspace, ensures_bind, ensures_get]
  split
  · rename_i hcurrent
    exact hnone hcurrent
  · rename_i name database hcurrent
    have haction := hsome name database hcurrent
    unfold Ensures at haction
    rcases hrun : action.runOn ⟨database, session.store⟩ with ⟨outcome, later⟩
    rw [hrun] at haction
    cases outcome <;> simpa [entered] using haction

theorem ensures_close_of_save {done : Unit → Session → Prop} {failed : Failure → Session → Prop}
    (hnone : session.current = none → done () session)
    (hsome : ∀ name database, session.current = some (name, database) →
      Workspace.save.Ensures ⟨database, session.store⟩
        (fun _ later => done () (session.left later.store))
        fun failure later => failed failure (session.entered name later)) :
    close.Ensures session done failed := by
  simp only [close, ensures_bind, ensures_get]
  cases hcurrent : session.current with
  | none => exact hnone hcurrent
  | some current =>
      simp only [save, ensures_bind, ensures_get, hcurrent, ensures_modify]
      exact ensures_onWorkspace (fun habsent => by simp [habsent] at hcurrent) hsome

/-- What a command that writes no file leaves of the database in use. -/
inductive Works (path : Text) (session : Session) : Session → Prop
  | idle : Works path session session
  | steps {name : Text} {database : Database} {workspace : Workspace}
      (hcurrent : session.current = some (name, database))
      (hsteps : Workspace.Steps path name ⟨database, session.store⟩ workspace)
      (hstore : workspace.store = session.store) :
      Works path session (session.entered name workspace)

/-- What a change of the database in use leaves once it is saved. -/
inductive Commits (path : Text) (session : Session) : Session → Prop
  | intro {name : Text} {database : Database} {workspace last : Workspace}
      (hcurrent : session.current = some (name, database))
      (hsteps : Workspace.Steps path name ⟨database, session.store⟩ workspace)
      (hsaves : Workspace.Saves path name workspace last) :
      Commits path session (session.entered name last)

/-- What is left where saving fails. -/
inductive Stalls (path : Text) (session : Session) : Session → Prop
  | intro {name : Text} {database : Database} {workspace last : Workspace}
      (hcurrent : session.current = some (name, database))
      (hsteps : Workspace.Steps path name ⟨database, session.store⟩ workspace)
      (hsaves : Workspace.SavesPartly path name workspace last) :
      Stalls path session (session.entered name last)

theorem Works.isSound {later : Session} (hworks : Works path session later)
    (h : session.IsSound path) : later.IsSound path := by
  cases hworks with
  | idle => exact h
  | steps hcurrent hsteps _ => exact h.entered (hsteps.isSound (h.current _ _ hcurrent))

theorem Commits.isSound {later : Session} (hcommits : Commits path session later)
    (h : session.IsSound path) : later.IsSound path := by
  cases hcommits with
  | intro hcurrent hsteps hsaves =>
      exact h.entered (hsaves.isSound (hsteps.isSound (h.current _ _ hcurrent)))

theorem Stalls.isSound {later : Session} (hstalls : Stalls path session later)
    (h : session.IsSound path) : later.IsSound path := by
  cases hstalls with
  | intro hcurrent hsteps hsaves =>
      exact h.entered (hsaves.isSound (hsteps.isSound (h.current _ _ hcurrent)))

/-- An action that takes a sound workspace through steps, and writes no file if it fails. -/
def TakesSteps {α : Type} (path : Text) (action : Action Workspace α) : Prop :=
  ∀ name workspace, Workspace.IsSound path name workspace →
    action.Ensures workspace (fun _ later => Workspace.Steps path name workspace later)
      fun _ later => Workspace.Steps path name workspace later ∧ later.store = workspace.store

theorem ensures_change (h : session.IsSound path) {α : Type} {action : Action Workspace α}
    (haction : TakesSteps path action) :
    (onWorkspace action >>= fun _ => save).Ensures session
      (fun _ later => Commits path session later)
      fun _ later => Works path session later ∨ Stalls path session later := by
  rw [ensures_bind]
  refine ensures_onWorkspace (fun _ => .inl .idle) fun name database hcurrent =>
    (haction name _ (h.current name database hcurrent)).mono (fun _ workspace hsteps => ?_)
      fun _ _ hfailed => .inl (.steps hcurrent hfailed.1 hfailed.2)
  have hworkspace := hsteps.isSound (h.current name database hcurrent)
  simp only [save, ensures_bind, ensures_get]
  refine ensures_onWorkspace (fun hnone => by cases hnone) fun other found hfound => ?_
  cases hfound
  exact (Workspace.ensures_save hworkspace).mono
    (fun _ last hsaved => .intro hcurrent hsteps ⟨hsaved.1, hsaved.2.1, hsaved.2.2⟩)
    fun _ last hsaved => .inr (.intro hcurrent hsteps ⟨hsaved.1, hsaved.2⟩)

/-! ## Commands on a database in use -/

theorem ensures_loading (h : session.IsSound path) (spelled : Text) :
    (onWorkspace (Workspace.loadTable spelled)).Ensures session
      (fun _ later => ∃ name database workspace, session.current = some (name, database) ∧
        Workspace.Steps path name ⟨database, session.store⟩ workspace ∧
          workspace.store = session.store ∧ later = session.entered name workspace)
      fun _ later => Works path session later := by
  refine ensures_onWorkspace (fun _ => .idle) fun name database hcurrent =>
    (Workspace.ensures_loadTable (h.current name database hcurrent) spelled).mono
      (fun _ later hloaded => ?_) fun _ later hfailed => ?_
  · obtain ⟨hregistered, htable, rfl⟩ := hloaded
    exact ⟨name, database, _, hcurrent, .tail .refl (.held htable hregistered), rfl, rfl⟩
  · exact hfailed ▸ .steps hcurrent .refl rfl

theorem takesSteps_onTable {α : Type} {spelled : Text} {action : Action Table α}
    (haction : Table.KeepsSound spelled.lower action) :
    TakesSteps path (Workspace.onTable spelled action) := by
  intro name workspace h
  refine (Workspace.ensures_onTable h haction).mono (fun _ later hdone => ?_) fun _ later hfailed => ?_
  · obtain ⟨hregistered, table, htable, rfl⟩ := hdone
    exact .tail .refl (.held htable hregistered)
  · rcases hfailed with rfl | ⟨hregistered, table, htable, rfl⟩
    · exact ⟨.refl, rfl⟩
    · exact ⟨.tail .refl (.held htable hregistered), rfl⟩

theorem takesSteps_createTable {displayName : Text} {names : List Text}
    (hdisplay : IsIdentifier displayName) (hnames : ∀ name ∈ names, IsIdentifier name) :
    TakesSteps path (Workspace.createTable displayName names) := by
  intro name workspace h
  refine (Workspace.ensures_createTable h hdisplay hnames).mono (fun _ later hdone => ?_)
    fun _ later hfailed => ?_
  · obtain ⟨table, htable, hnew, husable, rfl⟩ := hdone
    exact .tail .refl (.created htable hnew husable)
  · rcases hfailed with rfl | ⟨table, htable, hnew, hunusable, rfl⟩
    · exact ⟨.refl, rfl⟩
    · exact ⟨.tail .refl (.unwritten htable hnew hunusable), rfl⟩

theorem takesSteps_dropTable (spelled : Text) : TakesSteps path (Workspace.dropTable spelled) := by
  intro name workspace h
  refine (Workspace.ensures_dropTable h spelled).mono (fun _ later hdone => ?_) fun _ later hfailed => ?_
  · obtain ⟨hregistered, rfl⟩ := hdone
    exact .tail .refl (.dropped hregistered)
  · rcases hfailed with rfl | ⟨hregistered, hmissing, rfl⟩
    · exact ⟨.refl, rfl⟩
    · exact ⟨.tail .refl (.missing hregistered hmissing), rfl⟩

/-! ## Whole databases -/

inductive Leaves (path : Text) (session : Session) : Store → Prop
  | idle (hcurrent : session.current = none) : Leaves path session session.store
  | saved {name : Text} {database : Database} {last : Workspace}
      (hcurrent : session.current = some (name, database))
      (hsaves : Workspace.Saves path name ⟨database, session.store⟩ last) :
      Leaves path session last.store

theorem Leaves.isOrderly {store : Store} (hleaves : Leaves path session store)
    (h : session.IsSound path) : store.IsOrderly path := by
  cases hleaves with
  | idle _ => exact h.store
  | saved hcurrent hsaves => exact (hsaves.isSound (h.current _ _ hcurrent)).store

theorem ensures_close (h : session.IsSound path) :
    close.Ensures session
      (fun _ later => ∃ store, Leaves path session store ∧ later = session.left store)
      fun _ later => Stalls path session later := by
  refine ensures_close_of_save (fun hcurrent => ?_) fun name database hcurrent => ?_
  · exact ⟨session.store, .idle hcurrent, by rw [left, ← hcurrent]⟩
  · exact (Workspace.ensures_save (h.current name database hcurrent)).mono
      (fun _ last hsaved => ⟨last.store, .saved hcurrent ⟨hsaved.1, hsaved.2.1, hsaved.2.2⟩, rfl⟩)
      fun _ last hsaved => .intro hcurrent .refl ⟨hsaved.1, hsaved.2⟩

theorem IsSound.directoryOf_eq (h : session.IsSound path) (name : Text) :
    session.directoryOf name = (Place.root path).child name := by
  rw [directoryOf, h.root]

theorem IsSound.metadataPlace_directoryOf (h : session.IsSound path) (name : Text) :
    Database.metadataPlace (session.directoryOf name) =
      fileIn path name Database.metadataName := by
  rw [h.directoryOf_eq]
  rfl

theorem databaseExists_iff (h : session.IsSound path) (hname : IsIdentifier name) :
    session.databaseExists name = true ↔
      (session.store.get? [name, Database.metadataName]).isSome = true := by
  have hdirectory {key : Key} := @Place.locate_directory session.store path name key hname.isStep
    h.store.root
  have hfile {key : Key} := @Place.locate_file session.store path name Database.metadataName key
    hname.isStep isStep_metadataName h.store.root
  rw [databaseExists, h.metadataPlace_directoryOf, h.directoryOf_eq, Bool.and_eq_true]
  constructor
  · rintro ⟨_, hisFile⟩
    cases hentry : session.store.entryAt? (fileIn path name Database.metadataName) with
    | none => simp [Store.isFile, hentry] at hisFile
    | some entry =>
        obtain ⟨hformed, key, hkey, hfound⟩ := Store.entryAt?_eq_some.1 hentry
        obtain ⟨_, _, rfl⟩ := (hfile hformed).1 hkey
        rw [hfound]
        rfl
  · intro hsome
    obtain ⟨entry, hentry⟩ := Option.isSome_iff_exists.1 hsome
    have husable := (h.store.usable name _ entry hentry).2
    have hparent := h.store.parent name _ entry hentry
    obtain ⟨text, rfl⟩ := h.store.file name _ entry hentry
    have husableDirectory := husable.directory hname.isStep isStep_metadataName
    constructor
    · have hentryAt : session.store.entryAt? ((Place.root path).child name) = some .directory :=
        Store.entryAt?_eq_some.2 ⟨husableDirectory.wellFormed, [name],
          (hdirectory husableDirectory.wellFormed).2 ⟨husableDirectory, rfl⟩, hparent⟩
      simp [Store.isDirectory, hentryAt]
    · have hentryAt : session.store.entryAt? (fileIn path name Database.metadataName) =
          some (.file (.text text)) :=
        Store.entryAt?_eq_some.2 ⟨husable.wellFormed, _,
          (hfile husable.wellFormed).2 ⟨husable, hparent, rfl⟩, hentry⟩
      simp [Store.isFile, hentryAt]

theorem ensures_readMetadata {store : Store} (h : store.IsOrderly path) (hname : IsIdentifier name) :
    (Files.readMetadata (fileIn path name Database.metadataName)).Ensures store
      (fun members later => later = store ∧ ∃ schemas, SoundSchemas schemas ∧ AllCounted schemas ∧
        store.get? [name, Database.metadataName] = some (.file (.text (metadataText schemas))) ∧
          members = describing schemas)
      fun _ later => later = store := by
  have hlocate {key : Key} := @Place.locate_file store path name Database.metadataName key
    hname.isStep isStep_metadataName h.root
  rw [Files.readMetadata, ensures_bind]
  refine Files.ensures_readText (fun text hformed hread => ?_) fun _ => rfl
  obtain ⟨key, hkey, hentry⟩ := Store.read_eq_ok.1 hread
  obtain ⟨_, _, rfl⟩ := (hlocate hformed).1 hkey
  obtain ⟨schemas, hsound, heq⟩ := h.metadata name _ hentry
  cases heq
  split
  · rfl
  · rename_i members hparse
    have hcounted := hsound.counted_of_parse hparse
    rw [hsound.parse_metadataText hcounted] at hparse
    cases hparse
    exact ⟨rfl, schemas, hsound, hcounted, hentry, rfl⟩
  · rfl

theorem runOn_readMetadata {store : Store} (h : store.IsOrderly path) (hname : IsIdentifier name)
    {schemas : List (Text × Schema)} (hsound : SoundSchemas schemas) (hcounted : AllCounted schemas)
    (htext : store.get? [name, Database.metadataName] =
      some (.file (.text (metadataText schemas)))) :
    (Files.readMetadata (fileIn path name Database.metadataName)).runOn store =
      (.ok (describing schemas), store) := by
  rw [Files.readMetadata, runOn_bind_of_ok (h.runOn_readText hname isStep_metadataName htext _),
    hsound.parse_metadataText hcounted]
  rfl

def opened (session : Session) (store : Store) (name : Text) (schemas : List (Text × Schema)) :
    Session :=
  { session with
    store := store
    current := some (name, .ofSchemas (session.root.child name) schemas) }

theorem ensures_useDatabase (h : session.IsSound path) (hname : IsIdentifier name) :
    (useDatabase name).Ensures session
      (fun _ later => ∃ store schemas, Leaves path session store ∧ SoundSchemas schemas ∧
        AllCounted schemas ∧
          store.get? [name, Database.metadataName] = some (.file (.text (metadataText schemas))) ∧
            later = session.opened store name schemas)
      fun _ later => later = session ∨ Stalls path session later ∨
        ∃ store, Leaves path session store ∧ later = session.left store := by
  simp only [useDatabase, ensures_bind, ensures_get]
  split
  · exact .inl rfl
  rw [ensures_bind]
  refine (ensures_close h).mono (fun _ later hclosed => ?_) fun _ _ hstalls => .inr (.inl hstalls)
  obtain ⟨store, hleaves, rfl⟩ := hclosed
  have horderly := hleaves.isOrderly h
  simp only [ensures_bind, ensures_get, onStore, ensures_within, ensures_modify]
  rw [(h.left horderly).metadataPlace_directoryOf]
  refine (ensures_readMetadata horderly hname).mono (fun members last hread => ?_) fun _ last hlast => ?_
  · obtain ⟨rfl, schemas, hsound, hcounted, htext, rfl⟩ := hread
    rw [ensures_ofOutcome, hsound.schemasOf_describing]
    refine ⟨fun found hfound => ?_, fun failure hfailure => by cases hfailure⟩
    cases hfound
    exact ⟨_, schemas, hleaves, hsound, hcounted, htext, rfl⟩
  · exact .inr (.inr ⟨store, hleaves, by rw [hlast]; rfl⟩)

theorem soundSchemas_nil : SoundSchemas [] :=
  ⟨List.nodup_nil, fun _ hmem => absurd hmem List.not_mem_nil⟩

inductive HasDirectory (store : Store) (name : Text) : Store → Prop
  | found (hentry : store.get? [name] = some .directory) : HasDirectory store name store
  | made (hentry : store.get? [name] = none) :
      HasDirectory store name (store.insert [name] .directory)

theorem HasDirectory.get? {store later : Store} (h : HasDirectory store name later) :
    later.get? [name] = some .directory := by
  cases h with
  | found hentry => exact hentry
  | made _ => simp

theorem HasDirectory.isOrderly {store later : Store} (h : HasDirectory store name later)
    (horderly : store.IsOrderly path) (hname : IsIdentifier name) : later.IsOrderly path := by
  cases h with
  | found _ => exact horderly
  | made hentry => exact horderly.insertDirectory hname hentry

theorem ensures_makeDirectory (h : session.IsSound path) (hname : IsIdentifier name)
    (task : StorageTask) :
    (onStore (Files.change task ((Place.root path).child name)
      (·.makeDirectory ((Place.root path).child name)))).Ensures session
        (fun _ later => ∃ store, HasDirectory session.store name store ∧
          later = { session with store })
        fun _ later => later = session := by
  rw [onStore, ensures_within]
  refine Files.ensures_change (fun store hformed hmake => ⟨store, ?_, rfl⟩) fun _ _ => rfl
  obtain ⟨key, hkey, hmade⟩ := (Store.makeDirectory_eq_ok h.store.root).1 hmake
  obtain ⟨_, rfl⟩ := (Place.locate_directory hname.isStep h.store.root hformed).1 hkey
  rcases hmade with ⟨hentry, rfl⟩ | ⟨hentry, rfl⟩
  · exact .made hentry
  · exact .found hentry

theorem ensures_writeEmptyMetadata (hname : IsIdentifier name) (horderly : session.store.IsOrderly path)
    (hparent : session.store.get? [name] = some .directory) :
    (onStore (Files.writeMetadata (fileIn path name Database.metadataName)
      (.object (describing [])))).Ensures session
        (fun _ later => (fileIn path name Database.metadataName).IsUsable ∧
          later = { session with
            store := session.store.insert [name, Database.metadataName]
              (.file (.text (metadataText []))) })
        fun _ later => ¬ (fileIn path name Database.metadataName).IsUsable ∧ later = session := by
  rw [onStore, ensures_within]
  refine (horderly.ensures_writeMetadata hname hparent soundSchemas_nil).mono
    (fun _ later hdone => ⟨hdone.2.1, by rw [hdone.2.2]⟩) fun _ later hfailed => ?_
  rcases hfailed with ⟨hunusable, rfl⟩ | ⟨hcounted, _⟩
  · exact ⟨hunusable, rfl⟩
  · exact absurd (fun _ hmem => absurd hmem List.not_mem_nil) hcounted

/-- A database is created with empty metadata; where these cannot be written, its directory
remains. -/
theorem ensures_createDatabase (h : session.IsSound path) (hname : IsIdentifier name) :
    (createDatabase name).Ensures session
      (fun _ later => session.store.get? [name, Database.metadataName] = none ∧
        (fileIn path name Database.metadataName).IsUsable ∧
          ∃ store, HasDirectory session.store name store ∧
            later = { session with
              store := store.insert [name, Database.metadataName] (.file (.text (metadataText []))) })
      fun _ later => later = session ∨
        ¬ (fileIn path name Database.metadataName).IsUsable ∧
          ∃ store, HasDirectory session.store name store ∧ later = { session with store } := by
  simp only [createDatabase, ensures_bind, ensures_get]
  split
  · exact .inl rfl
  rename_i hexists
  have hnone : session.store.get? [name, Database.metadataName] = none := by
    rw [databaseExists_iff h hname] at hexists
    simpa using hexists
  rw [ensures_bind, h.metadataPlace_directoryOf, h.directoryOf_eq]
  refine (ensures_makeDirectory h hname _).mono (fun _ later hmade => ?_) fun _ _ hlater => .inl hlater
  obtain ⟨store, hhas, rfl⟩ := hmade
  exact (ensures_writeEmptyMetadata hname (hhas.isOrderly h.store hname) hhas.get?).mono
    (fun _ later hdone => ⟨hnone, hdone.1, store, hhas, hdone.2⟩)
    fun _ later hfailed => .inr ⟨hfailed.1, store, hhas, hfailed.2⟩

def without (session : Session) (name : Text) : Session :=
  { session with
    store := session.store.filter fun key _ => !List.isPrefixOf [name] key
    current := if session.databaseName = some name then none else session.current }

theorem entryExists_iff {store : Store} (h : store.IsOrderly path) (hname : IsIdentifier name) :
    store.entryExists ((Place.root path).child name) = true ↔
      store.get? [name] = some .directory ∧ ((Place.root path).child name).IsUsable := by
  have hdirectory {key : Key} := @Place.locate_directory store path name key hname.isStep h.root
  rw [Store.entryExists, Option.isSome_iff_exists]
  constructor
  · rintro ⟨entry, hentry⟩
    obtain ⟨hformed, key, hkey, hfound⟩ := Store.entryAt?_eq_some.1 hentry
    obtain ⟨husable, rfl⟩ := (hdirectory hformed).1 hkey
    exact ⟨(h.directory name entry hfound).1 ▸ hfound, husable⟩
  · rintro ⟨hentry, husable⟩
    exact ⟨_, Store.entryAt?_eq_some.2
      ⟨husable.wellFormed, [name], (hdirectory husable.wellFormed).2 ⟨husable, rfl⟩, hentry⟩⟩

def withoutCurrent (session : Session) (name : Text) : Session :=
  { session with current := if session.databaseName = some name then none else session.current }

/-- Whatever lies under a name is taken for a database to be deleted. -/
theorem runOn_deleteDatabase_removeTree (session : Session) (name : Text) :
    (deleteDatabase name).runOn session =
      if session.store.entryExists (session.directoryOf name) then
        match session.store.removeTree (session.directoryOf name) with
        | .ok store => (.ok (), { session.withoutCurrent name with store })
        | .error cause => (.error (.reported (.storage (.file
            (.delete (session.directoryOf name).path) ⟨cause, (session.directoryOf name).path⟩))),
              session.withoutCurrent name)
      else (.error (.reported (.databaseNotFound name)), session) := by
  rw [deleteDatabase, runOn_get_bind]
  dsimp only
  cases hexists : session.store.entryExists (session.directoryOf name) with
  | false => rfl
  | true =>
      obtain ⟨entry, hentry⟩ := Option.isSome_iff_exists.1 hexists
      obtain ⟨hformed, _⟩ := Store.entryAt?_eq_some.1 hentry
      have hdelete (other : Session) (hstore : other.store = session.store) :
          (onStore (Files.deleteTree (session.directoryOf name))).runOn other =
            match session.store.removeTree (session.directoryOf name) with
            | .ok store => (.ok (), { other with store })
            | .error cause => (.error (.reported (.storage (.file
                (.delete (session.directoryOf name).path)
                  ⟨cause, (session.directoryOf name).path⟩))), other) := by
        rw [onStore, runOn_within, Files.deleteTree, Files.change, runOn_bind, Files.runOn_attempt,
          hformed, hstore]
        cases session.store.removeTree (session.directoryOf name) with
        | ok store => rfl
        | error cause =>
            rw [← hstore]
            rfl
      by_cases hcurrent : session.databaseName = some name
      · rw [if_pos hcurrent, withoutCurrent, if_pos hcurrent]
        exact hdelete _ rfl
      · rw [if_neg hcurrent, withoutCurrent, if_neg hcurrent]
        exact hdelete _ rfl

theorem runOn_deleteDatabase (h : session.IsSound path) (hname : IsIdentifier name) :
    (deleteDatabase name).runOn session =
      if session.store.entryExists ((Place.root path).child name) then
        (.ok (), session.without name)
      else (.error (.reported (.databaseNotFound name)), session) := by
  rw [runOn_deleteDatabase_removeTree, h.directoryOf_eq]
  cases hexists : session.store.entryExists ((Place.root path).child name) with
  | false => rfl
  | true =>
      obtain ⟨hentry, husable⟩ := (entryExists_iff h.store hname).1 hexists
      have hremove : session.store.removeTree ((Place.root path).child name) = .ok
          (session.store.filter fun key _ => !List.isPrefixOf [name] key) :=
        Store.removeTree_eq_ok.2 ⟨[name], (Place.locate_directory hname.isStep h.store.root
          husable.wellFormed).2 ⟨husable, rfl⟩, hentry, rfl⟩
      rw [hremove]
      rfl

theorem ensures_deleteDatabase (h : session.IsSound path) (hname : IsIdentifier name) :
    (deleteDatabase name).Ensures session (fun _ later => later = session.without name)
      fun _ later => later = session := by
  rw [Ensures, runOn_deleteDatabase h hname]
  cases session.store.entryExists ((Place.root path).child name) <;> rfl

/-! ## All commands -/

theorem ensures_discard {α β : Type} {action : Action Session α} (result : β)
    {done failed : Session → Prop}
    (h : action.Ensures session (fun _ later => done later) fun _ later => failed later) :
    (action >>= fun _ => pure result).Ensures session (fun _ later => done later)
      fun _ later => failed later :=
  (ensures_bind _ _).2 h

theorem isIdentifier_of_isLoweredName {name : Text}
    (h : Spelling.IsLoweredName name) : IsIdentifier name := by
  obtain ⟨spelled, hspelled, rfl⟩ := h
  exact hspelled.lower

theorem execute_of_changing {command : Command} {action : Action Workspace Unit}
    (haction : command.changing = some action) :
    execute command = do
      onWorkspace action >>= fun _ => save
      return none := by
  cases command <;> cases haction <;> simp [execute, changeTable, changeSelected]

theorem takesSteps_changing {command : Command} (hprintable : Spelling.Printable command)
    {action : Action Workspace Unit} (haction : command.changing = some action) :
    TakesSteps path action := by
  cases command <;> cases haction
  case createTable table names displayName =>
    obtain ⟨hdisplay, _, hnames⟩ := hprintable
    rw [if_neg hdisplay.ne_nil]
    exact takesSteps_createTable hdisplay hnames
  case dropTable table => exact takesSteps_dropTable table
  case addAttribute table name => exact takesSteps_onTable (Table.keepsSound_addAttribute hprintable.2)
  case dropAttribute table name => exact takesSteps_onTable (Table.keepsSound_dropAttribute name)
  case insert table values =>
    refine takesSteps_onTable fun found hfound => ?_
    rw [ensures_bind]
    exact Table.keepsSound_insert values found hfound
  case delete table condition =>
    refine takesSteps_onTable (Table.keepsSound_selected fun ids found hfound => ?_)
    rw [ensures_bind]
    exact Table.keepsSound_deleteRecords ids found hfound
  case update table assignments condition =>
    exact takesSteps_onTable (Table.keepsSound_selected (Table.keepsSound_updateRecords assignments))

/-- A change is saved, or the database in use has gone through steps, or saving them has
failed. -/
theorem ensures_execute_change (h : session.IsSound path) {command : Command}
    (hprintable : Spelling.Printable command) (hchange : command.IsChange) :
    (execute command).Ensures session (fun _ later => Commits path session later)
      fun _ later => Works path session later ∨ Stalls path session later := by
  obtain ⟨action, haction⟩ := hchange.exists_changing
  rw [execute_of_changing haction]
  exact ensures_discard none (ensures_change h (takesSteps_changing hprintable haction))

end Session

end Relbase
