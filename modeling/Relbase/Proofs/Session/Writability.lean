import Relbase.Proofs.Session.Responses

/-!
# Failing commands and files

A database in use can be saved if the row file of every loaded table can be.  Then a command
that fails has failed before anything was written.  But a table stays loaded whose row file
was refused when it was created, and from then on every save writes the metadata and fails.
-/

namespace Relbase

open Relbase.Action

/-! ## Stores with the same files -/

namespace Store

def SameFiles (store later : Store) : Prop :=
  ∀ key content, later.get? key = some (.file content) ↔ store.get? key = some (.file content)

theorem sameFiles_of_eq {store later : Store} (h : later = store) : store.SameFiles later :=
  fun _ _ => by rw [h]

theorem IsOrderly.exists_of_file {path : Text} {store : Store} (h : store.IsOrderly path)
    {key : Key} {content : Content} (hfile : store.get? key = some (.file content)) :
    ∃ name file, key = [name, file] := by
  match key, hfile with
  | [], hfile =>
      rw [h.root] at hfile
      cases hfile
  | [name], hfile => cases (h.directory name _ hfile).1
  | [name, file], _ => exact ⟨name, file, rfl⟩
  | _ :: _ :: _ :: _, hfile =>
      have hdepth := h.depth _ _ hfile
      simp at hdepth

theorem IsOrderly.get?_ne_file {path : Text} {store : Store} (h : store.IsOrderly path)
    (hpath : '\x00' ∈ path) (key : Key) (content : Content) :
    store.get? key ≠ some (.file content) := by
  intro hfile
  obtain ⟨name, file, rfl⟩ := h.exists_of_file hfile
  obtain ⟨hstep, husable⟩ := h.usable name file _ hfile
  have hname := (h.directory name _ (h.parent name file _ hfile)).2
  have hformed := husable.wellFormed
  rw [Place.isMalformed_child _ hstep, Place.isMalformed_child _ hname.isStep,
    Place.isMalformed_root] at hformed
  simp [List.contains_eq_mem, hpath] at hformed

end Store

theorem Session.HasDirectory.sameFiles {name : Text} {store later : Store}
    (h : HasDirectory store name later) : store.SameFiles later := by
  cases h with
  | found _ => exact Store.sameFiles_of_eq rfl
  | made hnone =>
      intro key content
      rw [SortedMap.get?_insert]
      split
      · rename_i heq
        simp [← heq, hnone]
      · rfl

/-! ## New columns -/

theorem isIdentifier_replicate (length : Nat) : IsIdentifier (List.replicate (length + 1) 'a') := by
  have hall : (List.replicate (length + 1) 'a').all Char.isAlphanum = true := by
    rw [List.all_replicate]
    rfl
  refine TokenKind.classify_eq_identifier.2 ⟨?_, ?_, by simp, hall⟩
  · have hother : ∀ entry ∈ TokenKind.fixed, entry.1.all (· == 'A') = false := by decide +kernel
    have hcapital : TokenKind.capital 'a' = 'A' := by decide
    refine Option.eq_none_iff_forall_not_mem.2 fun kind hkind => ?_
    have hentry := hother _ (Assoc.mem_of_get? hkind)
    rw [List.map_replicate, hcapital] at hentry
    simp at hentry
  · rw [Text.isIntegerNumeral_of_alphanum hall]
    have hdigit : Text.isDigit 'a' = false := by decide
    simp [hdigit]

theorem exists_isIdentifier_notMem (names : List Text) :
    ∃ name, IsIdentifier name ∧ name.lower ∉ names := by
  have hbound : ∃ bound, ∀ name ∈ names, name.length ≤ bound := by
    induction names with
    | nil => exact ⟨0, nofun⟩
    | cons first rest ih =>
        obtain ⟨bound, hbound⟩ := ih
        refine ⟨first.length + bound, List.forall_mem_cons.2 ⟨by omega, fun name hname => ?_⟩⟩
        have := hbound name hname
        omega
  obtain ⟨bound, hbound⟩ := hbound
  have hidentifier := isIdentifier_replicate bound
  refine ⟨_, hidentifier, fun hmem => ?_⟩
  have hlength := hbound _ hmem
  rw [Text.lower_of_alphanum hidentifier.alphanum] at hlength
  simp only [List.length_map, List.length_replicate] at hlength
  omega

theorem Table.runOn_addAttribute {table : Table} {name : Text}
    (hfresh : name.lower ∉ table.attributes.keys) :
    ∃ changed : Table, (Table.addAttribute name).runOn table = (.ok (), changed) ∧
      changed.attributes.names = table.attributes.names ++ [name] := by
  obtain ⟨larger, hlarger, hnames⟩ := AttributeSet.exists_add hfresh
  refine ⟨_, by rw [Table.addAttribute, runOn_get_bind, hlarger]; rfl, ?_⟩
  exact hnames

/-! ## Databases that can be saved -/

def Database.IsWritable (path name : Text) (database : Database) : Prop :=
  ∀ entry ∈ database.loadedTables, (fileIn path name (rowFileName entry.1)).IsUsable

namespace Workspace

variable {path name : Text} {workspace : Workspace}

theorem isWritable_registered (h : workspace.database.IsWritable path name) {key : Text}
    {table : Table} (husable : (fileIn path name (Database.rowFileName key)).IsUsable) :
    (workspace.registered key (.ofTable table)).database.IsWritable path name := by
  rintro ⟨other, found⟩ hloaded
  obtain ⟨rfl, -⟩ | ⟨-, hold⟩ := OrderedMap.get?_put_eq_some_iff.1 (mem_loadedTables.1 hloaded)
  · exact husable
  · exact h (other, found) (mem_loadedTables.2 hold)

theorem isWritable_unregistered (h : workspace.database.IsWritable path name) (key : Text) :
    (workspace.unregistered key).database.IsWritable path name := by
  rintro ⟨other, found⟩ hloaded
  have hold := (OrderedMap.get?_erase_eq_some_iff.1 (mem_loadedTables.1 hloaded)).2
  exact h (other, found) (mem_loadedTables.2 hold)

theorem IsSound.usable_of_tableAt (h : workspace.IsSound path name) {key : Text}
    (hkey : IsIdentifier key) {schema : Schema} {table : Table}
    (htable : Workspace.tableAt workspace.store (workspace.database.rowFilePlace key) schema =
      .ok table) :
    (fileIn path name (Database.rowFileName key)).IsUsable := by
  have hread : (Files.readRows (fileIn path name (Database.rowFileName key))).Ensures
      workspace.store (fun _ _ => (fileIn path name (Database.rowFileName key)).IsUsable)
        fun _ _ => True := by
    rw [Files.readRows, ensures_bind]
    refine Files.ensures_readText (fun text hformed hread => ?_) fun _ => trivial
    obtain ⟨_, hlocate, _⟩ := Store.read_eq_ok.1 hread
    exact ((Place.locate_file h.identifier.isStep hkey.isStep_rowFileName h.store.root
      hformed).1 hlocate).1
  rw [h.rowFilePlace_eq, Workspace.tableAt] at htable
  unfold Ensures at hread
  rcases hfile : (Files.readRows (fileIn path name (Database.rowFileName key))).runOn
    workspace.store with ⟨_ | file, later⟩
  · simp [hfile, bind, Except.bind] at htable
  · rwa [hfile] at hread

theorem IsSound.usable_of_tableOf (h : workspace.IsSound path name)
    (hwritable : workspace.database.IsWritable path name) {spelled : Text} {table : Table}
    (htable : workspace.tableOf spelled = .ok table) :
    (fileIn path name (Database.rowFileName spelled.lower)).IsUsable := by
  rw [Workspace.tableOf] at htable
  split at htable
  · cases htable
  · rename_i found hfound
    split at htable
    · rename_i loaded hloaded
      exact hwritable (spelled.lower, loaded)
        (mem_loadedTables.2 (by rw [hfound, ← Registration.eq_ofTable hloaded]))
    · exact h.usable_of_tableAt (h.tables _ found hfound).schema.key.1 htable

/-- An action that loads and creates no tables but those whose row files can be. -/
def KeepsWritable (path : Text) (action : Action Workspace Unit) : Prop :=
  ∀ name workspace, Workspace.IsSound path name workspace →
    workspace.database.IsWritable path name →
      action.Ensures workspace (fun _ later => later.database.IsWritable path name) fun _ _ => True

theorem keepsWritable_onTable (spelled : Text) (action : Action Table Unit) :
    KeepsWritable path (onTable spelled action) := by
  intro name workspace h hwritable
  refine ensures_onTable_of_tableOf (fun _ _ => trivial) fun table htable => ?_
  exact ensures_of_runOn (Prod.ext rfl rfl)
    (fun _ _ => isWritable_registered hwritable (h.usable_of_tableOf hwritable htable))
    fun _ _ => trivial

theorem keepsWritable_changing {command : Command} (hprintable : Spelling.Printable command)
    {action : Action Workspace Unit} (haction : command.changing = some action) :
    KeepsWritable path action := by
  cases command <;> cases haction
  case createTable table names displayName =>
    obtain ⟨hdisplay, _, hnames⟩ := hprintable
    rw [if_neg hdisplay.ne_nil]
    intro name workspace h hwritable
    refine (ensures_createTable h hdisplay hnames).mono (fun _ later hdone => ?_)
      fun _ _ _ => trivial
    obtain ⟨table, _, _, husable, rfl⟩ := hdone
    exact isWritable_registered hwritable husable
  case dropTable table =>
    intro name workspace h hwritable
    refine (ensures_dropTable h table).mono (fun _ later hdone => ?_) fun _ _ _ => trivial
    rw [hdone.2]
    exact isWritable_unregistered hwritable _
  case addAttribute | dropAttribute | insert | delete | update => exact keepsWritable_onTable _ _

end Workspace

/-! ## Failing commands -/

namespace Session

variable {path name : Text} {session later : Session} {Q : Text → Text → Int → Prop}

def IsWritable (path : Text) (session : Session) : Prop :=
  ∀ name database, session.current = some (name, database) → database.IsWritable path name

theorem Changes.store_eq {action : Action Workspace Unit} {failure : Failure}
    (hchanges : Changes path session action (.error failure) later) (h : session.IsSound path)
    (hlater : later.Counts Q) (hfits : Fits Q) (hwritable : session.IsWritable path)
    (haction : Workspace.KeepsWritable path action) : later.store = session.store := by
  cases hchanges with
  | idle _ => rfl
  | refused _ _ _ hstore => exact hstore
  | unsaved hcurrent hrun hsteps hsaves hwriting hreported =>
      rename_i name database workspace last
      have hdatabase : last.database = workspace.database := by
        obtain ⟨written, _, rfl⟩ := hsaves.written
        exact Workspace.withRows_database _ _ _
      obtain ⟨entry, hloaded, hunusable⟩ :=
        hsaves.unusable (hdatabase ▸ hlater.allCounted hfits rfl)
      have hsaved := (haction name _ (h.current name database hcurrent)
        (hwritable name database hcurrent)).of_ok hrun
      exact absurd (hsaved entry hloaded) hunusable

theorem ensures_close_writable (h : session.IsSound path) (hcounts : session.Counts Q)
    (hfits : Fits Q) (hwritable : session.IsWritable path) :
    close.Ensures session
      (fun _ later => ∃ store, Leaves path session store ∧ later = session.left store)
      fun _ _ => False := by
  refine ensures_close_of_save (fun hcurrent => ?_) fun name database hcurrent => ?_
  · exact ⟨session.store, .idle hcurrent, by rw [left, ← hcurrent]⟩
  · refine (Workspace.ensures_save (h.current name database hcurrent)).mono
      (fun _ last hsaved => ⟨last.store, .saved hcurrent ⟨hsaved.1, hsaved.2.1, hsaved.2.2⟩, rfl⟩)
      fun _ last hfailed => ?_
    obtain ⟨entry, hloaded, hunusable⟩ := hfailed.1 (hcounts.allCounted hfits hcurrent)
    exact hunusable (hwritable name database hcurrent entry hloaded)

theorem Leaves.isSome_metadata {store : Store} (hleaves : Leaves path session store) {other : Text}
    (hsome : (session.store.get? [other, Database.metadataName]).isSome = true) :
    (store.get? [other, Database.metadataName]).isSome = true := by
  cases hleaves with
  | idle _ => exact hsome
  | saved hcurrent hsaves =>
      rename_i name database last
      by_cases hother : other = name
      · rw [hother, hsaves.metadata]
        rfl
      · rwa [hsaves.keepsOthers _ (by simp [hother])]

theorem ensures_useDatabase_writable (h : session.IsSound path) (hcounts : session.Counts Q)
    (hfits : Fits Q) (hwritable : session.IsWritable path) (hname : IsIdentifier name) :
    (useDatabase name).Ensures session (fun _ _ => True) fun _ later => later = session := by
  simp only [useDatabase, ensures_bind, ensures_get]
  split
  · rfl
  rename_i hexists
  have hsome := (databaseExists_iff h hname).1 (by simpa using hexists)
  rw [ensures_bind]
  refine ((ensures_close_writable h hcounts hfits hwritable).and
    (ensures_close_counts h hcounts)).mono (fun _ closed hclosed => ?_)
      fun _ _ hfailed => hfailed.1.elim
  obtain ⟨⟨store, hleaves, rfl⟩, hsound, hcounts⟩ := hclosed
  obtain ⟨entry, hentry⟩ := Option.isSome_iff_exists.1 (hleaves.isSome_metadata hsome)
  obtain ⟨schemas, hschemas, rfl, hcounters⟩ := hcounts.files name entry hentry
  have hcounted : AllCounted schemas := fun table htable => hfits _ _ _ (hcounters table htable)
  simp only [ensures_bind, ensures_get, onStore, ensures_within, ensures_modify]
  rw [hsound.metadataPlace_directoryOf]
  refine ensures_of_runOn (runOn_readMetadata hsound.store hname hschemas hcounted hentry)
    (fun members hmembers => ?_) fun failure hfailure => by cases hfailure
  cases hmembers
  rw [ensures_ofOutcome, hschemas.schemasOf_describing]
  exact ⟨fun _ _ => trivial, fun _ hfailure => by cases hfailure⟩

theorem Works.store_eq (hworks : Works path session later) : later.store = session.store := by
  cases hworks with
  | idle => rfl
  | steps _ _ hstore => exact hstore

theorem ensures_execute_unchanging_writable (h : session.IsSound path) (hcounts : session.Counts Q)
    (hfits : Fits Q) (hwritable : session.IsWritable path) {command : Command}
    (hprintable : Spelling.Printable command) (haction : command.changing = none) :
    (execute command).Ensures session (fun _ _ => True)
      fun _ later => session.store.SameFiles later.store := by
  cases command
  case createTable | dropTable | addAttribute | dropAttribute | insert | delete | update =>
    cases haction
  case use database =>
    rw [execute, ensures_bind]
    exact (ensures_useDatabase_writable h hcounts hfits hwritable
      (isIdentifier_of_isLoweredName hprintable)).mono (fun _ _ _ => trivial)
        fun _ _ hlater => Store.sameFiles_of_eq (by rw [hlater])
  case createDatabase database =>
    rw [execute, ensures_bind]
    refine (ensures_createDatabase h (isIdentifier_of_isLoweredName hprintable)).mono
      (fun _ _ _ => trivial) fun _ later hfailed => ?_
    rcases hfailed with rfl | ⟨_, store, hhas, rfl⟩
    · exact Store.sameFiles_of_eq rfl
    · exact hhas.sameFiles
  case dropDatabase database =>
    rw [execute, ensures_bind]
    exact (ensures_deleteDatabase h (isIdentifier_of_isLoweredName hprintable)).mono
      (fun _ _ _ => trivial) fun _ _ hlater => Store.sameFiles_of_eq (by rw [hlater])
  case select columns table condition =>
    exact (ensures_select h columns table condition).mono (fun _ _ _ => trivial)
      fun _ _ hworks => Store.sameFiles_of_eq hworks.store_eq
  case join leftTable rightTable leftOn rightOn =>
    exact (ensures_join h leftTable rightTable leftOn rightOn).mono (fun _ _ _ => trivial)
      fun _ _ hworks => Store.sameFiles_of_eq hworks.store_eq

theorem sameFiles_of_failure (h : session.IsSound path) (hcounts : session.Counts Q)
    (hfits : Fits Q) (hwritable : session.IsWritable path) {text : Text} {failure : Failure}
    (hrun : (executeText text).runOn session = (.error failure, later)) (hlater : later.Counts Q) :
    session.store.SameFiles later.store := by
  rw [executeText] at hrun
  split at hrun
  · rename_i command hcommand
    have hprintable := Spelling.printable_of_ofText hcommand
    cases haction : command.changing with
    | none =>
        exact (ensures_execute_unchanging_writable h hcounts hfits hwritable hprintable
          haction).of_error hrun
    | some action =>
        obtain ⟨outcome, houtcome, hchanges⟩ := h.changes_execute hprintable haction
        rw [hrun] at houtcome hchanges
        cases outcome with
        | ok _ => cases houtcome
        | error other =>
            exact Store.sameFiles_of_eq (hchanges.store_eq h hlater hfits hwritable
              (Workspace.keepsWritable_changing hprintable haction))
  · cases hrun
    exact Store.sameFiles_of_eq rfl

/-! ## A failing change of the metadata -/

/-- A change of a table whose row file cannot be writes the metadata and fails. -/
theorem Changes.unsaved_metadata {action : Action Workspace Unit} {outcome : Except Failure Unit}
    (hchanges : Changes path session action outcome later) {database : Database}
    {workspace : Workspace} (hcurrent : session.current = some (name, database))
    (hrun : action.runOn ⟨database, session.store⟩ = (.ok (), workspace)) {key : Text}
    {table : Table} (hloaded : (key, table) ∈ workspace.database.loadedTables)
    (hunusable : ¬ (fileIn path name (Database.rowFileName key)).IsUsable) :
    (∃ failure, outcome = .error failure) ∧
      later.current = some (name, workspace.database) ∧
        later.store.get? [name, Database.metadataName] =
          some (.file (.text (metadataText workspace.database.schemas))) := by
  cases hchanges with
  | idle hnone => simp [hnone] at hcurrent
  | refused hfound hrefused _ _ =>
      rw [hfound] at hcurrent
      cases hcurrent
      rw [hrefused] at hrun
      cases hrun
  | saved hfound hdone _ hsaves =>
      rw [hfound] at hcurrent
      cases hcurrent
      rw [hdone] at hrun
      cases hrun
      exact absurd (hsaves.usable (key, table) hloaded) hunusable
  | unsaved hfound hdone hsteps hsaves hwriting hreported =>
      rw [hfound] at hcurrent
      cases hcurrent
      rw [hdone] at hrun
      cases hrun
      obtain ⟨written, _, rfl⟩ := hsaves.written
      refine ⟨⟨_, rfl⟩, ?_, Workspace.get?_saved_metadata _ _ _⟩
      rw [entered, Workspace.withRows_database]
      rfl

/-- In a session whose database in use cannot be saved, a column may be added that is neither
in memory nor in the metadata file; then the file is changed though the command fails. -/
theorem exists_changing_failure (h : session.IsSound path) (hcounts : session.Counts Q)
    (hfits : Fits Q) (hlater : ∀ text, ((executeText text).runOn session).2.Counts Q)
    (hunwritable : ¬ session.IsWritable path) :
    ∃ text failure, ((executeText text).runOn session).1 = .error failure ∧
      ¬ session.store.SameFiles ((executeText text).runOn session).2.store := by
  simp only [IsWritable, Database.IsWritable, not_forall, exists_prop] at hunwritable
  obtain ⟨name, database, hcurrent, ⟨key, table⟩, hloaded, hunusable⟩ := hunwritable
  have hworkspace := h.current name database hcurrent
  have hkey := (hworkspace.loaded (key, table) hloaded).schema.key
  obtain ⟨entry, hentry⟩ := Option.isSome_iff_exists.1 hworkspace.metadata
  obtain ⟨old, hold, rfl, _⟩ := hcounts.files name entry hentry
  obtain ⟨column, hcolumn, hfresh⟩ := exists_isIdentifier_notMem
    (table.attributes.keys ++
      ((Assoc.get? key old).map fun schema => schema.attributes.keys).getD [])
  rw [List.mem_append, not_or] at hfresh
  have hprintable : Spelling.Printable (.addAttribute key column) :=
    ⟨⟨key, hkey.1, hkey.2⟩, hcolumn⟩
  obtain ⟨text, hcommand⟩ := Spelling.exists_text hprintable
  obtain ⟨outcome, houtcome, hchanges⟩ := h.changes_execute hprintable rfl
  obtain ⟨changed, hadd, hnames⟩ := Table.runOn_addAttribute hfresh.1
  have hrun : (Workspace.onTable key (Table.addAttribute column)).runOn ⟨database, session.store⟩ =
      (.ok (), Workspace.registered ⟨database, session.store⟩ key (.ofTable changed)) := by
    have htable : Workspace.tableOf ⟨database, session.store⟩ key = .ok table :=
      Workspace.tableOf_loaded (by rw [hkey.2]; exact Workspace.mem_loadedTables.1 hloaded)
    rw [Workspace.runOn_onTable, Workspace.acted, htable, hkey.2]
    simp only [hadd]
  have hchanged : (key, changed) ∈ (Workspace.registered ⟨database, session.store⟩ key
      (.ofTable changed)).database.loadedTables :=
    Workspace.mem_loadedTables.2 (by simp [Workspace.registered])
  obtain ⟨⟨failure, rfl⟩, hdatabase, htext⟩ :=
    hchanges.unsaved_metadata hcurrent hrun hchanged hunusable
  have hexecute : executeText text = execute (.addAttribute key column) := by
    rw [executeText, hcommand]
  rw [← hexecute] at houtcome hdatabase htext
  refine ⟨text, failure, houtcome, fun hsame => ?_⟩
  -- If the metadata file were the old one, the column would be in it already.
  have hsound := ((isSound_react h (.query text)).current name _ hdatabase).soundSchemas
  have heq := hsound.eq_of_metadataText_eq hold ((hlater text).allCounted hfits hdatabase)
    (by simpa using ((hsame _ _).1 htext).symm.trans hentry)
  have hnew : Assoc.get? key old = some changed.schema := by
    rw [heq, Database.get?_schemas, Workspace.registered, OrderedMap.get?_put, if_pos rfl]
    rfl
  have hadded : column.lower ∈ changed.attributes.keys := by simp [AttributeSet.keys, hnames]
  exact hfresh.2 (by rw [hnew]; exact hadded)

/-! ## Runs -/

/-- In a run the commands that fail change no file exactly as long as the database in use can
be saved. -/
theorem sameFiles_iff_isWritable (path : Text) (events : List Event)
    (hlength : events.length + 2 < Text.digitBound) :
    (∀ text failure, ((executeText text).runOn (after path events)).1 = .error failure →
        (after path events).store.SameFiles (after path (events ++ [.query text])).store) ↔
      (after path events).IsWritable path := by
  have hsound := isSound_after path events
  simp only [after_append, react]
  by_cases hpath : '\x00' ∈ path
  · -- No file can be made below such a root, and no database be in use.
    refine iff_of_true (fun text _ _ => ?_) fun name database hcurrent => ?_
    · have hlater := isSound_react hsound (.query text)
      exact fun key content => iff_of_false (hlater.store.get?_ne_file hpath key content)
        (hsound.store.get?_ne_file hpath key content)
    · obtain ⟨entry, hentry⟩ :=
        Option.isSome_iff_exists.1 (hsound.current name database hcurrent).metadata
      obtain ⟨text, rfl⟩ := hsound.store.file name _ entry hentry
      exact absurd hentry (hsound.store.get?_ne_file hpath _ _)
  · have hcounts := counts_after hpath events (Nat.lt_of_succ_lt hlength)
    have hfits : Fits (UpTo (events.length + 1)) := fits_upTo hlength
    have hlater (text : Text) :=
      ((ensures_executeText_answered hsound hpath hcounts hfits text).mono
        (fun _ _ hdone => hdone.2) fun _ _ hfailed => hfailed.2).finally
    have hcounts : (after path events).Counts (UpTo (events.length + 1)) :=
      hcounts.mono fun _ _ _ hcounter => hcounter.mono
    refine ⟨fun hsame => ?_, fun hwritable text failure hfailure => ?_⟩
    · by_contra hunwritable
      obtain ⟨text, failure, hfailure, hchanged⟩ :=
        exists_changing_failure hsound hcounts hfits hlater hunwritable
      exact hchanged (hsame text failure hfailure)
    · exact sameFiles_of_failure hsound hcounts hfits hwritable (Prod.ext hfailure rfl)
        (hlater text)

end Session

end Relbase
