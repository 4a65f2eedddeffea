import Relbase.Proofs.Session.Changes
import Relbase.Proofs.Session.Consistency

/-!
# Counters

The next id of a table is kept in memory and in the metadata file of its database.  It moves
only when a record is inserted, in both places unless the file cannot be written whole, and
it starts when the table is created.
-/

namespace Relbase

open Relbase.Action

/-! ## Counters in memory -/

def Database.counter? (database : Database) (key : Text) : Option Int :=
  (database.tables.get? key).map fun found => found.schema.nextId

namespace Workspace

variable {path name : Text} {workspace : Workspace}

theorem counter?_registered (workspace : Workspace) (key other : Text)
    (registration : Registration) :
    (workspace.registered key registration).database.counter? other =
      if key = other then some registration.schema.nextId
      else workspace.database.counter? other := by
  rw [Database.counter?, Workspace.registered, OrderedMap.get?_put]
  split <;> rfl

theorem counter?_unregistered (workspace : Workspace) (key other : Text) :
    (workspace.unregistered key).database.counter? other =
      if key = other then none else workspace.database.counter? other := by
  rw [Database.counter?, Workspace.unregistered, OrderedMap.get?_erase]
  split <;> rfl

theorem counter?_of_mem_schemas {database : Database} {entry : Text × Schema}
    (h : entry ∈ database.schemas) : database.counter? entry.1 = some entry.2.nextId := by
  obtain ⟨⟨key, registration⟩, hmem, rfl⟩ := List.mem_map.1 h
  rw [Database.counter?, OrderedMap.get?_eq_some_iff.2 hmem]
  rfl

theorem IsSound.counter?_of_tableOf (h : workspace.IsSound path name) {spelled : Text}
    {table : Table} (htable : workspace.tableOf spelled = .ok table) :
    workspace.database.counter? spelled.lower = some table.schema.nextId := by
  have hschema := h.tableOf spelled
  rw [htable] at hschema
  obtain ⟨found, hfound, heq⟩ := Option.map_eq_some_iff.1 hschema
  rw [Database.counter?, hfound, ← heq]
  rfl

theorem IsSound.counter?_registered_eq (h : workspace.IsSound path name) {spelled : Text}
    {table changed : Table} (htable : workspace.tableOf spelled = .ok table)
    (hchanged : changed.schema.nextId = table.schema.nextId) :
    (workspace.registered spelled.lower (.ofTable changed)).database.counter? =
      workspace.database.counter? := by
  funext other
  rw [counter?_registered]
  split
  · rename_i heq
    rw [← heq, h.counter?_of_tableOf htable]
    exact congrArg some hchanged
  · rfl

theorem IsSound.ensures_onTable_steady (h : workspace.IsSound path name) (spelled : Text)
    {action : Action Table Unit} (haction : Table.IsSteady action) :
    (onTable spelled action).Ensures workspace
      (fun _ later => later.database.counter? = workspace.database.counter?)
      fun failure later => failure.IsReported ∧
        later.database.counter? = workspace.database.counter? := by
  have hearly := h.tableOf spelled
  refine ensures_onTable_of_tableOf (fun failure hfailure => ?_) fun table htable => ?_
  · rw [hfailure] at hearly
    exact ⟨hearly.reported, rfl⟩
  · exact (haction _ table (isSound_of_tableOf h htable)).mono
      (fun _ _ hchanged => h.counter?_registered_eq htable hchanged)
      fun _ _ hfailed => ⟨hfailed.1, h.counter?_registered_eq htable hfailed.2⟩

/-- Inserting takes the next id of its table, unless it is refused early. -/
theorem IsSound.ensures_insert (h : workspace.IsSound path name) (spelled : Text)
    (values : List Text) :
    (onTable spelled (do let _ ← Table.insert values)).Ensures workspace
      (fun _ later => ∃ table, workspace.tableOf spelled = .ok table ∧
        later = workspace.registered spelled.lower (.ofTable { table.advanced with
          records := table.records.insert table.schema.nextId (table.nextRecord values) }))
      fun failure later =>
        failure.IsEarly ∧ later.database.counter? = workspace.database.counter? ∨
          failure = .unforeseen .oversizedInteger ∧ ∃ table, workspace.tableOf spelled = .ok table ∧
            Text.isOversized table.schema.nextId = true ∧
              later = workspace.registered spelled.lower (.ofTable table.advanced) := by
  have hearly := h.tableOf spelled
  refine ensures_onTable_of_tableOf (fun failure hfailure => ?_) fun table htable => ?_
  · rw [hfailure] at hearly
    exact .inl ⟨hearly, rfl⟩
  · simp only [ensures_bind, ensures_pure]
    refine (Table.ensures_insert table values).mono (fun _ changed hchanged => ?_)
      fun failure changed hfailed => ?_
    · exact ⟨table, htable, by rw [hchanged.2.2.2]; rfl⟩
    · rcases hfailed with ⟨hfailure, rfl⟩ | ⟨rfl, hsize, rfl⟩
      · exact .inl ⟨hfailure, h.counter?_registered_eq htable rfl⟩
      · exact .inr ⟨rfl, table, htable, hsize, rfl⟩

theorem isEarly_of_freshAttributes {names : List Text} {error : DbError}
    (h : freshAttributes names = .error error) : (Failure.reported error).IsEarly := by
  obtain ⟨attributes, hattributes, -⟩ | hfailed := freshAttributes_cases names
  · cases h.symm.trans hattributes
  · cases h.symm.trans hfailed
    exact ⟨trivial, rfl⟩

/-- The counter of a new table is one, also where its row file cannot be written. -/
theorem IsSound.ensures_createTable_counter (h : workspace.IsSound path name) {displayName : Text}
    {names : List Text} (hdisplay : IsIdentifier displayName)
    (hnames : ∀ name ∈ names, IsIdentifier name) :
    (createTable displayName names).Ensures workspace
      (fun _ later => ∀ other, later.database.counter? other =
        if displayName.lower = other then some 1 else workspace.database.counter? other)
      fun failure later => failure.IsEarly ∧ later = workspace ∨
        failure.IsReported ∧ failure.isOfWriting = true ∧
          ¬ (fileIn path name (Database.rowFileName displayName.lower)).IsUsable ∧
            ∀ other, later.database.counter? other =
              if displayName.lower = other then some 1
              else workspace.database.counter? other := by
  simp only [createTable, ensures_bind, ensures_get]
  split
  · exact .inl ⟨⟨trivial, rfl⟩, rfl⟩
  split
  · rename_i error herror
    exact .inl ⟨isEarly_of_freshAttributes herror, rfl⟩
  · rename_i attributes hattributes
    obtain ⟨hhead, hidentifiers⟩ := ensures_freshAttributes hnames hattributes
    have htable : (Table.ofSchema (.fresh displayName attributes)).IsSound displayName.lower :=
      Table.isSound_ofSchema (.fresh hdisplay hhead hidentifiers)
    have hregistered := h.registered (Registration.isSound_ofTable htable)
    have hcounter := fun other => counter?_registered workspace displayName.lower other
      (.ofTable (Table.ofSchema (.fresh displayName attributes)))
    rw [ensures_bind, register, ensures_modify]
    refine ((ensures_writeTable hregistered hdisplay.lower _).and
      (ensures_writeTable_refusal hregistered hdisplay.lower _)).mono
        (fun _ later hwritten => ?_) fun _ later hfailed => ?_
    · rw [hwritten.1.2]
      exact hcounter
    · obtain ⟨⟨hunusable, rfl⟩, hreported, hwriting⟩ := hfailed
      exact .inr ⟨hreported, hwriting, hunusable, hcounter⟩

theorem IsSound.ensures_dropTable_counter (h : workspace.IsSound path name) (spelled : Text) :
    (dropTable spelled).Ensures workspace
      (fun _ later => ∀ key counter, later.database.counter? key = some counter →
        workspace.database.counter? key = some counter)
      fun failure later => failure.IsReported ∧
        ∀ key counter, later.database.counter? key = some counter →
          workspace.database.counter? key = some counter := by
  have hunregistered {key : Text} {counter : Int}
      (hcounter : (workspace.unregistered spelled.lower).database.counter? key = some counter) :
      workspace.database.counter? key = some counter := by
    rw [counter?_unregistered] at hcounter
    split at hcounter
    · cases hcounter
    · exact hcounter
  rw [dropTable, ensures_bind, Ensures, runOn_registration]
  cases hfound : workspace.database.tables.get? spelled.lower with
  | none => exact ⟨trivial, fun _ _ hcounter => hcounter⟩
  | some found =>
      have hkey := (h.tables _ found hfound).schema.key.1
      simp only [ensures_bind, unregister, ensures_modify, ensures_get, onStore, ensures_within]
      change (Files.deleteFile (workspace.database.rowFilePlace spelled.lower)).Ensures
        workspace.store _ _
      rw [h.rowFilePlace_eq]
      exact (Files.ensures_change_refusal (h.isMalformed_rowFile hkey) _).mono
        (fun _ _ _ _ _ hcounter => hunregistered hcounter)
        fun _ _ hrefused => ⟨hrefused.isReported, fun _ _ hcounter => hunregistered hcounter⟩

end Workspace

/-! ## Counters in memory and in files -/

namespace Session

variable {path name : Text} {session later : Session} {Q R : Text → Text → Int → Prop}

/-- Something that holds of all counters, of those in memory and of those in files. -/
structure Counts (Q : Text → Text → Int → Prop) (session : Session) : Prop where
  memory : ∀ name database, session.current = some (name, database) →
    ∀ key counter, database.counter? key = some counter → Q name key counter
  files : ∀ name entry, session.store.get? [name, Database.metadataName] = some entry →
    ∃ schemas, SoundSchemas schemas ∧ entry = .file (.text (metadataText schemas)) ∧
      ∀ table ∈ schemas, Q name table.1 table.2.nextId

theorem counts_start (Q : Text → Text → Int → Prop) (path : Text) :
    (start path Store.emptyRoot).Counts Q where
  memory name database hcurrent := by cases hcurrent
  files name entry hentry := by
    rw [start, Store.emptyRoot, SortedMap.get?_insert, if_neg (by simp)] at hentry
    cases hentry

namespace Counts

theorem mono (h : session.Counts Q) (hmono : ∀ name key counter, Q name key counter →
    R name key counter) : session.Counts R where
  memory name database hcurrent key counter hcounter :=
    hmono name key counter (h.memory name database hcurrent key counter hcounter)
  files name entry hentry := by
    obtain ⟨schemas, hsound, htext, hcounters⟩ := h.files name entry hentry
    exact ⟨schemas, hsound, htext, fun table htable => hmono _ _ _ (hcounters table htable)⟩

theorem inStore (h : session.Counts Q) {store : Store} {current : Option (Text × Database)}
    (hcurrent : ∀ name database, current = some (name, database) →
      session.current = some (name, database))
    (hkeeps : ∀ name entry, store.get? [name, Database.metadataName] = some entry →
      entry = .file (.text (metadataText [])) ∨
        session.store.get? [name, Database.metadataName] = some entry) :
    ({ session with store, current } : Session).Counts Q where
  memory name database hnow := h.memory name database (hcurrent name database hnow)
  files name entry hentry := by
    rcases hkeeps name entry hentry with rfl | hold
    · exact ⟨[], soundSchemas_nil, rfl, fun _ hmem => absurd hmem List.not_mem_nil⟩
    · exact h.files name entry hold

theorem written (h : session.Counts Q) {workspace : Workspace}
    (hsound : workspace.IsSound path name)
    (hkeeps : Workspace.KeepsOthers name session.store workspace.store)
    (hothers : ∀ other key counter, other ≠ name → Q other key counter → R other key counter)
    (hmemory : ∀ key counter, workspace.database.counter? key = some counter →
      R name key counter) (tables : List (Text × Table)) :
    (session.entered name ((workspace.withMetadata name).withRows name tables)).Counts R where
  memory other database hcurrent key counter hcounter := by
    rw [entered, Workspace.withRows_database] at hcurrent
    cases hcurrent
    exact hmemory key counter hcounter
  files other entry hentry := by
    by_cases hother : other = name
    · subst hother
      rw [entered, Workspace.get?_saved_metadata] at hentry
      cases hentry
      exact ⟨_, hsound.soundSchemas, rfl, fun table htable =>
        hmemory _ _ (Workspace.counter?_of_mem_schemas htable)⟩
    · have hkept : (((workspace.withMetadata name).withRows name tables).store.get?
          [other, Database.metadataName]) =
            session.store.get? [other, Database.metadataName] := by
        rw [Workspace.get?_withRows_of_ne (by simp [hother]), Workspace.withMetadata,
          Workspace.withFile, SortedMap.get?_insert, if_neg (by simp [Ne.symm hother]),
          hkeeps _ (by simp [hother])]
      rw [entered, hkept] at hentry
      obtain ⟨schemas, hschemas, htext, hcounters⟩ := h.files other entry hentry
      exact ⟨schemas, hschemas, htext,
        fun table htable => hothers _ _ _ hother (hcounters table htable)⟩

theorem entered (h : session.Counts Q) {workspace : Workspace}
    (hstore : workspace.store = session.store)
    (hothers : ∀ other key counter, Q other key counter → R other key counter)
    (hmemory : ∀ key counter, workspace.database.counter? key = some counter →
      R name key counter) : (session.entered name workspace).Counts R where
  memory other database hcurrent key counter hcounter := by
    cases hcurrent
    exact hmemory key counter hcounter
  files other entry hentry := by
    rw [Session.entered, hstore] at hentry
    exact (h.mono hothers).files other entry hentry

end Counts

def Fits (Q : Text → Text → Int → Prop) : Prop :=
  ∀ name key counter, Q name key counter → Text.isOversized counter = false

theorem Counts.allCounted (h : session.Counts Q) (hfits : Fits Q) {database : Database}
    (hcurrent : session.current = some (name, database)) : AllCounted database.schemas :=
  fun _ hentry => hfits _ _ _
    (h.memory name database hcurrent _ _ (Workspace.counter?_of_mem_schemas hentry))

/-! ## Changes -/

theorem Changes.counts {action : Action Workspace Unit} {outcome : Except Failure Unit}
    (hchanges : Changes path session action outcome later) (h : session.IsSound path)
    (hcounts : session.Counts Q)
    (hidle : session.current = none → session.Counts R)
    (hrefused : ∀ name database failure workspace, session.current = some (name, database) →
      outcome = .error failure →
        action.runOn ⟨database, session.store⟩ = (.error failure, workspace) →
          (∀ other key counter, Q other key counter → R other key counter) ∧
            ∀ key counter, workspace.database.counter? key = some counter → R name key counter)
    (hdone : ∀ name database workspace, session.current = some (name, database) →
      tookEffect outcome = true →
        action.runOn ⟨database, session.store⟩ = (.ok (), workspace) →
          (∀ other key counter, other ≠ name → Q other key counter → R other key counter) ∧
            ∀ key counter, workspace.database.counter? key = some counter → R name key counter) :
    later.Counts R := by
  cases hchanges with
  | idle hcurrent => exact hidle hcurrent
  | refused hcurrent hrun hsteps hstore =>
      obtain ⟨hothers, hmemory⟩ := hrefused _ _ _ _ hcurrent rfl hrun
      exact hcounts.entered hstore hothers hmemory
  | saved hcurrent hrun hsteps hsaves =>
      obtain ⟨hothers, hmemory⟩ := hdone _ _ _ hcurrent rfl hrun
      rw [hsaves.eq]
      exact hcounts.written (hsteps.isSound (h.current _ _ hcurrent)) hsteps.keepsOthers hothers
        hmemory _
  -- The metadata are the first that is written, also where saving fails later.
  | unsaved hcurrent hrun hsteps hsaves hwriting _ =>
      obtain ⟨hothers, hmemory⟩ := hdone _ _ _ hcurrent hwriting hrun
      obtain ⟨written, _, rfl⟩ := hsaves.written
      exact hcounts.written (hsteps.isSound (h.current _ _ hcurrent)) hsteps.keepsOthers hothers
        hmemory _

theorem Changes.exists_current {action : Action Workspace Unit} {outcome : Except Failure Unit}
    (hchanges : Changes path session action outcome later) (heffect : tookEffect outcome = true) :
    ∃ name database, session.current = some (name, database) := by
  cases hchanges with
  | idle _ => cases heffect
  | refused hcurrent _ _ _ => exact ⟨_, _, hcurrent⟩
  | saved hcurrent _ _ _ => exact ⟨_, _, hcurrent⟩
  | unsaved hcurrent _ _ _ _ _ => exact ⟨_, _, hcurrent⟩

theorem Changes.counts_of_refusal {action : Action Workspace Unit} {outcome : Except Failure Unit}
    (hchanges : Changes path session action outcome later) (h : session.IsSound path)
    (hcounts : session.Counts Q) (heffect : tookEffect outcome = false)
    (hrefused : ∀ name database failure workspace, session.current = some (name, database) →
      failure.isOfWriting = false →
        action.runOn ⟨database, session.store⟩ = (.error failure, workspace) →
          ∀ key counter, workspace.database.counter? key = some counter → Q name key counter) :
    later.Counts Q := by
  refine hchanges.counts h hcounts (fun _ => hcounts)
    (fun name database failure workspace hcurrent houtcome hrun =>
      ⟨fun _ _ _ hold => hold, hrefused name database failure workspace hcurrent ?_ hrun⟩)
    fun _ _ _ _ hdone _ => by rw [heffect] at hdone; cases hdone
  rwa [houtcome] at heffect

theorem Changes.counts_of_effect {action : Action Workspace Unit} {outcome : Except Failure Unit}
    (hchanges : Changes path session action outcome later) (h : session.IsSound path)
    (hcounts : session.Counts Q) (heffect : tookEffect outcome = true)
    (hrefused : ∀ name database failure workspace, session.current = some (name, database) →
      failure.isOfWriting = true →
        action.runOn ⟨database, session.store⟩ = (.error failure, workspace) →
          (∀ other key counter, Q other key counter → R other key counter) ∧
            ∀ key counter, workspace.database.counter? key = some counter → R name key counter)
    (hdone : ∀ name database workspace, session.current = some (name, database) →
      action.runOn ⟨database, session.store⟩ = (.ok (), workspace) →
        (∀ other key counter, other ≠ name → Q other key counter → R other key counter) ∧
          ∀ key counter, workspace.database.counter? key = some counter → R name key counter) :
    later.Counts R := by
  refine hchanges.counts h hcounts (fun hnone => ?_)
    (fun name database failure workspace hcurrent houtcome hrun =>
      hrefused name database failure workspace hcurrent ?_ hrun)
    fun name database workspace hcurrent _ hrun => hdone name database workspace hcurrent hrun
  · obtain ⟨_, _, hcurrent⟩ := hchanges.exists_current heffect
    simp [hnone] at hcurrent
  · rwa [houtcome] at heffect

/-- A change fails as its action does, or in writing; and then there is something to report
unless a counter has too many digits. -/
theorem Changes.isReported {action : Action Workspace Unit} {outcome : Except Failure Unit}
    {failure : Failure} (hchanges : Changes path session action outcome later)
    (hcounts : later.Counts Q) (hfits : Fits Q) (houtcome : outcome = .error failure)
    (hrefused : ∀ name database workspace, session.current = some (name, database) →
      action.runOn ⟨database, session.store⟩ = (.error failure, workspace) →
        failure.IsReported) :
    failure.IsReported := by
  cases hchanges with
  | idle _ =>
      cases houtcome
      trivial
  | refused hcurrent hrun _ _ =>
      cases houtcome
      exact hrefused _ _ _ hcurrent hrun
  | saved _ _ _ _ => cases houtcome
  | unsaved hcurrent hrun hsteps hsaves hwriting hreported =>
      cases houtcome
      rename_i name database workspace last
      have hlast : last.database = workspace.database := by
        obtain ⟨written, _, rfl⟩ := hsaves.written
        exact Workspace.withRows_database _ _ _
      exact hreported (hlast ▸ hcounts.allCounted hfits rfl)

def KeepsCounters (path : Text) (action : Action Workspace Unit) : Prop :=
  ∀ name workspace, Workspace.IsSound path name workspace →
    action.Ensures workspace
      (fun _ later => ∀ key counter, later.database.counter? key = some counter →
        workspace.database.counter? key = some counter)
      fun failure later => failure.IsReported ∧
        ∀ key counter, later.database.counter? key = some counter →
          workspace.database.counter? key = some counter

theorem keepsCounters_onTable (spelled : Text) {action : Action Table Unit}
    (haction : Table.IsSteady action) : KeepsCounters path (Workspace.onTable spelled action) :=
  fun _ _ h => (h.ensures_onTable_steady spelled haction).mono
    (fun _ _ hsame _ _ hcounter => hsame ▸ hcounter)
    fun _ _ hfailed => ⟨hfailed.1, fun _ _ hcounter => hfailed.2 ▸ hcounter⟩

/-- What a change does to the counters: an insertion moves one, a creation starts one, and
no other change moves any. -/
inductive Counting (path : Text) : Command → Action Workspace Unit → Prop
  | inserts {table : Text} {values : List Text} :
      Counting path (.insert table values)
        (Workspace.onTable table do let _ ← Table.insert values)
  | creates {table displayName : Text} {names : List Text} (hdisplay : IsIdentifier displayName)
      (hnames : ∀ name ∈ names, IsIdentifier name) :
      Counting path (.createTable table names displayName)
        (Workspace.createTable displayName names)
  | keeps {command : Command} {action : Action Workspace Unit}
      (hinsert : ∀ table values, command ≠ .insert table values)
      (hcreate : ∀ table names displayName, command ≠ .createTable table names displayName)
      (hkeeps : KeepsCounters path action) : Counting path command action

theorem counting_of_changing (path : Text) {command : Command}
    (hprintable : Spelling.Printable command) {action : Action Workspace Unit}
    (haction : command.changing = some action) : Counting path command action := by
  cases command <;> cases haction
  case createTable table names displayName =>
    obtain ⟨hdisplay, _, hnames⟩ := hprintable
    rw [if_neg hdisplay.ne_nil]
    exact .creates hdisplay hnames
  case insert table values => exact .inserts
  case dropTable table =>
    exact .keeps nofun nofun fun _ _ h => h.ensures_dropTable_counter table
  case addAttribute table name =>
    exact .keeps nofun nofun (keepsCounters_onTable table (Table.isSteady_addAttribute name))
  case dropAttribute table name =>
    exact .keeps nofun nofun (keepsCounters_onTable table (Table.isSteady_dropAttribute name))
  case delete table condition =>
    refine .keeps nofun nofun (keepsCounters_onTable table (Table.isSteady_selected
      fun ids key found hfound => ?_))
    rw [ensures_bind]
    refine (Table.ensures_deleteRecords found ids).mono (fun _ later hdeleted => ?_)
      fun _ _ hfailed => hfailed.elim
    rw [ensures_pure, hdeleted.1]
  case update table assignments condition =>
    exact .keeps nofun nofun (keepsCounters_onTable table (Table.isSteady_selected
      (Table.isSteady_updateRecords assignments)))

theorem Changes.counts_of_keeps {action : Action Workspace Unit} {outcome : Except Failure Unit}
    (hchanges : Changes path session action outcome later) (h : session.IsSound path)
    (hcounts : session.Counts Q) (haction : KeepsCounters path action) : later.Counts Q := by
  refine hchanges.counts h hcounts (fun _ => hcounts)
    (fun name database failure workspace hcurrent _ hrun => ⟨fun _ _ _ hold => hold, ?_⟩)
    fun name database workspace hcurrent _ hrun => ⟨fun _ _ _ _ hold => hold, ?_⟩
  · obtain ⟨_, hcounters⟩ := (haction name _ (h.current name database hcurrent)).of_error hrun
    exact fun key counter hcounter =>
      hcounts.memory name database hcurrent key counter (hcounters key counter hcounter)
  · have hcounters := (haction name _ (h.current name database hcurrent)).of_ok hrun
    exact fun key counter hcounter =>
      hcounts.memory name database hcurrent key counter (hcounters key counter hcounter)

/-! ## Insertions and creations -/

structure Moves (Q R : Text → Text → Int → Prop) (name key : Text) : Prop where
  others : ∀ other table counter, (other, table) ≠ (name, key) →
    Q other table counter → R other table counter
  moved : ∀ counter, Q name key counter → R name key (counter + 1)
  lost : ∀ counter written, Q name key counter → Text.isOversized counter = true →
    Q name key written → R name key written

structure Starts (path : Text) (Q R : Text → Text → Int → Prop) (name key : Text) : Prop where
  others : ∀ other table counter, (other, table) ≠ (name, key) →
    Q other table counter → R other table counter
  first : R name key 1
  unwritten : ¬ (fileIn path name (Database.rowFileName key)).IsUsable →
    ∀ counter, Q name key counter → R name key counter

theorem Moves.all {key : Text} (hmoves : Moves Q R name key) {counter : Int}
    (hcounter : Q name key counter) (hsize : Text.isOversized counter = true) :
    ∀ other table written, Q other table written → R other table written := by
  intro other table written hwritten
  by_cases hsame : (other, table) = (name, key)
  · obtain ⟨rfl, rfl⟩ := Prod.mk.inj hsame
    exact hmoves.lost counter written hcounter hsize hwritten
  · exact hmoves.others other table written hsame hwritten

theorem Starts.all {key : Text} (hstarts : Starts path Q R name key)
    (hunusable : ¬ (fileIn path name (Database.rowFileName key)).IsUsable) :
    ∀ other table counter, Q other table counter → R other table counter := by
  intro other table counter hcounter
  by_cases hsame : (other, table) = (name, key)
  · obtain ⟨rfl, rfl⟩ := Prod.mk.inj hsame
    exact hstarts.unwritten hunusable counter hcounter
  · exact hstarts.others other table counter hsame hcounter

theorem counter_of_moved {key other : Text} {counter next : Int} {workspace : Workspace}
    {registration : Registration} (hnext : registration.schema.nextId = next)
    (hmoved : R name key next)
    (hothers : ∀ other counter, other ≠ key → workspace.database.counter? other = some counter →
      R name other counter)
    (hcounter : (workspace.registered key registration).database.counter? other = some counter) :
    R name other counter := by
  rw [Workspace.counter?_registered] at hcounter
  split at hcounter
  · rename_i heq
    cases hcounter
    exact heq ▸ hnext ▸ hmoved
  · rename_i hne
    exact hothers other counter (Ne.symm hne) hcounter

theorem Changes.counts_insert {spelled : Text} {values : List Text}
    {outcome : Except Failure Unit}
    (hchanges : Changes path session (Workspace.onTable spelled do let _ ← Table.insert values)
      outcome later) (h : session.IsSound path) (hcounts : session.Counts Q) :
    (tookEffect outcome = false → later.Counts Q) ∧
      (tookEffect outcome = true → (∀ name database, session.current = some (name, database) →
        Moves Q R name spelled.lower) → later.Counts R) := by
  have hinsert {name : Text} {database : Database}
      (hcurrent : session.current = some (name, database)) :=
    (h.current name database hcurrent).ensures_insert spelled values
  constructor
  · intro heffect
    refine hchanges.counts_of_refusal h hcounts heffect
      fun name database failure workspace hcurrent hearly hrun => ?_
    rcases (hinsert hcurrent).of_error hrun with ⟨_, hsame⟩ | ⟨rfl, _⟩
    · rw [hsame]
      exact hcounts.memory name database hcurrent
    · cases hearly
  · intro heffect hmoves
    refine hchanges.counts_of_effect h hcounts heffect
      (fun name database failure workspace hcurrent hwriting hrun => ?_)
      fun name database workspace hcurrent hrun => ?_
    · have hmoves := hmoves name database hcurrent
      rcases (hinsert hcurrent).of_error hrun with ⟨hearly, _⟩ | ⟨rfl, table, htable, hsize, rfl⟩
      · rw [hearly.notOfWriting] at hwriting
        cases hwriting
      -- The id is taken, but too long to be shown, so there is no record.
      · have hcounter := hcounts.memory name database hcurrent _ _
          ((h.current name database hcurrent).counter?_of_tableOf htable)
        have hall := hmoves.all hcounter hsize
        exact ⟨hall, fun other counter => counter_of_moved rfl (hmoves.moved _ hcounter)
          fun other counter _ hother => hall _ _ _ (hcounts.memory name database hcurrent _ _ hother)⟩
    · have hmoves := hmoves name database hcurrent
      obtain ⟨table, htable, rfl⟩ := (hinsert hcurrent).of_ok hrun
      have hcounter := hcounts.memory name database hcurrent _ _
        ((h.current name database hcurrent).counter?_of_tableOf htable)
      refine ⟨fun other key counter hother => hmoves.others other key counter (by simp [hother]),
        fun other counter => counter_of_moved rfl (hmoves.moved _ hcounter)
          fun other counter hother hfound => hmoves.others _ _ _ (by simp [hother])
            (hcounts.memory name database hcurrent _ _ hfound)⟩

theorem Changes.counts_createTable {displayName : Text} {names : List Text}
    (hdisplay : IsIdentifier displayName) (hnames : ∀ name ∈ names, IsIdentifier name)
    {outcome : Except Failure Unit}
    (hchanges : Changes path session (Workspace.createTable displayName names) outcome later)
    (h : session.IsSound path) (hcounts : session.Counts Q) :
    (tookEffect outcome = false → later.Counts Q) ∧
      (tookEffect outcome = true → (∀ name database, session.current = some (name, database) →
        Starts path Q R name displayName.lower) → later.Counts R) := by
  have hcreate {name : Text} {database : Database}
      (hcurrent : session.current = some (name, database)) :=
    (h.current name database hcurrent).ensures_createTable_counter hdisplay hnames
  have hstarted {name : Text} {database : Database} {workspace : Workspace}
      (hcurrent : session.current = some (name, database))
      (hstarts : Starts path Q R name displayName.lower)
      (hcounter : ∀ other, workspace.database.counter? other =
        if displayName.lower = other then some 1 else database.counter? other) :
      ∀ key counter, workspace.database.counter? key = some counter → R name key counter := by
    intro key counter hfound
    rw [hcounter] at hfound
    split at hfound
    · rename_i heq
      cases hfound
      exact heq ▸ hstarts.first
    · rename_i hne
      exact hstarts.others _ _ _ (by simp [Ne.symm hne])
        (hcounts.memory name database hcurrent _ _ hfound)
  constructor
  · intro heffect
    refine hchanges.counts_of_refusal h hcounts heffect
      fun name database failure workspace hcurrent hearly hrun => ?_
    rcases (hcreate hcurrent).of_error hrun with ⟨_, rfl⟩ | ⟨_, hwriting, _⟩
    · exact hcounts.memory name database hcurrent
    · rw [hearly] at hwriting
      cases hwriting
  · intro heffect hstarts
    refine hchanges.counts_of_effect h hcounts heffect
      (fun name database failure workspace hcurrent hwriting hrun => ?_)
      fun name database workspace hcurrent hrun => ?_
    · have hstarts := hstarts name database hcurrent
      rcases (hcreate hcurrent).of_error hrun with ⟨hearly, _⟩ | ⟨_, _, hunusable, hcounter⟩
      · rw [hearly.notOfWriting] at hwriting
        cases hwriting
      · exact ⟨hstarts.all hunusable, hstarted hcurrent hstarts hcounter⟩
    · have hstarts := hstarts name database hcurrent
      exact ⟨fun other key counter hother => hstarts.others other key counter (by simp [hother]),
        hstarted hcurrent hstarts ((hcreate hcurrent).of_ok hrun)⟩

end Session

end Relbase
