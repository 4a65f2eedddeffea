import Relbase.Proofs.Session.Counters
import Relbase.Proofs.Table.Joining

/-!
# How commands end

Commands that do not change tables move no counter, and their failures are reported as long
as no counter has too many digits.  What a selection or a join finds can be shown.
-/

namespace Relbase

open Relbase.Action

theorem Spelling.isNonempty_of_printable {columns : Columns} {table : Text}
    {condition : Option Condition} (h : Printable (.select columns table condition)) :
    columns.IsNonempty := by
  cases columns with
  | all => trivial
  | named names => exact h.2.1

namespace Session

variable {path name : Text} {session later : Session} {Q : Text → Text → Int → Prop}

/-! ## Reading -/

theorem ensures_loading_counts (h : session.IsSound path) (hcounts : session.Counts Q)
    (spelled : Text) :
    (onWorkspace (Workspace.loadTable spelled)).Ensures session
      (fun table later => table.IsSound spelled.lower ∧ later.IsSound path ∧ later.Counts Q)
      fun failure later => failure.IsReported ∧ later.Counts Q := by
  refine ensures_onWorkspace (fun _ => ⟨trivial, hcounts⟩) fun name database hcurrent => ?_
  have hworkspace := h.current name database hcurrent
  have hearly := hworkspace.tableOf spelled
  have hmemory := hcounts.memory name database hcurrent
  rw [Ensures, Workspace.runOn_loadTable]
  cases htable : Workspace.tableOf ⟨database, session.store⟩ spelled with
  | error failure =>
      rw [htable] at hearly
      exact ⟨hearly.reported, hcounts.entered rfl (fun _ _ _ hold => hold) hmemory⟩
  | ok table =>
      have hsound := Workspace.isSound_of_tableOf hworkspace htable
      refine ⟨hsound, h.entered (hworkspace.registered (Registration.isSound_ofTable hsound)), ?_⟩
      refine hcounts.entered rfl (fun _ _ _ hold => hold) ?_
      rw [hworkspace.counter?_registered_eq htable rfl]
      exact hmemory

theorem ensures_answer {outcome : Except Failure ResultSet} (h : ResultSet.IsAnswer outcome)
    (hcounts : session.Counts Q) :
    (do return some (← Action.ofOutcome outcome) : Action Session (Option ResultSet)).Ensures session
      (fun result later => (∃ answer, result = some answer ∧ answer.IsPresentable) ∧ later.Counts Q)
      fun failure later => failure.IsReported ∧ later.Counts Q := by
  rcases h with ⟨answer, rfl, hpresentable⟩ | ⟨failure, rfl, hreported⟩
  · exact ⟨⟨answer, rfl, hpresentable⟩, hcounts⟩
  · exact ⟨hreported, hcounts⟩

theorem ensures_select_answer (h : session.IsSound path) (hcounts : session.Counts Q)
    {columns : Columns} (hcolumns : columns.IsNonempty) (table : Text)
    (condition : Option Condition) :
    (execute (.select columns table condition)).Ensures session
      (fun result later => (∃ answer, result = some answer ∧ answer.IsPresentable) ∧ later.Counts Q)
      fun failure later => failure.IsReported ∧ later.Counts Q := by
  rw [execute, ensures_bind]
  refine (ensures_loading_counts h hcounts table).mono (fun found later hloaded => ?_)
    fun _ _ hfailed => hfailed
  exact ensures_answer (Table.isAnswer_answer hloaded.1 hcolumns condition) hloaded.2.2

theorem ensures_join_answer (h : session.IsSound path) (hcounts : session.Counts Q)
    (leftTable rightTable leftOn rightOn : Text) :
    (execute (.join leftTable rightTable leftOn rightOn)).Ensures session
      (fun result later => (∃ answer, result = some answer ∧ answer.IsPresentable) ∧ later.Counts Q)
      fun failure later => failure.IsReported ∧ later.Counts Q := by
  rw [execute, ensures_bind]
  refine (ensures_loading_counts h hcounts leftTable).mono (fun left middle hleft => ?_)
    fun _ _ hfailed => hfailed
  rw [ensures_bind]
  refine (ensures_loading_counts hleft.2.1 hleft.2.2 rightTable).mono (fun right later hright => ?_)
    fun _ _ hfailed => hfailed
  exact ensures_answer (Table.isAnswer_join hleft.1 hright.1 leftOn rightOn) hright.2.2

/-! ## Whole databases -/

theorem Counts.left (h : session.Counts Q) : (session.left session.store).Counts Q :=
  h.inStore (fun _ _ hcurrent => by cases hcurrent) fun _ _ hentry => .inr hentry

theorem ensures_close_counts (h : session.IsSound path) (hcounts : session.Counts Q) :
    close.Ensures session (fun _ later => later.IsSound path ∧ later.Counts Q)
      fun failure later => (Fits Q → failure.IsReported) ∧ later.Counts Q := by
  refine ensures_close_of_save (fun _ => ⟨h, hcounts⟩) fun name database hcurrent => ?_
  have hworkspace := h.current name database hcurrent
  have hmemory := hcounts.memory name database hcurrent
  refine ((Workspace.ensures_save hworkspace).and
    (Workspace.ensures_save_refusal hworkspace)).mono (fun _ last hsaved => ?_)
      fun failure last hfailed => ?_
  · have hsaves : Workspace.Saves path name ⟨database, session.store⟩ last :=
      ⟨hsaved.1.1, hsaved.1.2.1, hsaved.1.2.2⟩
    have hlast := hcounts.written hworkspace (fun _ _ => rfl) (fun _ _ _ _ hold => hold) hmemory
      (Workspace.mk database session.store).database.loadedTables
    rw [← hsaves.eq] at hlast
    exact ⟨h.left (hsaves.isSound hworkspace).store, hlast.left⟩
  · obtain ⟨⟨_, written, _, rfl⟩, _, hreported⟩ := hfailed
    exact ⟨fun hfits => hreported (hcounts.allCounted hfits hcurrent),
      hcounts.written hworkspace (fun _ _ => rfl) (fun _ _ _ _ hold => hold) hmemory written⟩

theorem counter?_ofSchemas {directory : Place} {schemas : List (Text × Schema)}
    (hdistinct : (Assoc.keys schemas).Nodup) {key : Text} {counter : Int}
    (hcounter : (Database.ofSchemas directory schemas).counter? key = some counter) :
    ∃ table ∈ schemas, table.1 = key ∧ table.2.nextId = counter := by
  obtain ⟨found, hfound, rfl⟩ := Option.map_eq_some_iff.1 hcounter
  rw [OrderedMap.get?_eq_some_iff, Database.entries_ofSchemas directory hdistinct] at hfound
  obtain ⟨table, htable, heq⟩ := List.mem_map.1 hfound
  cases heq
  exact ⟨table, htable, rfl, rfl⟩

theorem Counts.opened (h : session.Counts Q) {schemas : List (Text × Schema)}
    (hsound : SoundSchemas schemas) (hcounted : AllCounted schemas)
    (htext : session.store.get? [name, Database.metadataName] =
      some (.file (.text (metadataText schemas)))) :
    (session.opened session.store name schemas).Counts Q where
  memory other database hcurrent key counter hcounter := by
    cases hcurrent
    obtain ⟨others, hothers, heq, hcounters⟩ := h.files name _ htext
    have hsame : others = schemas := hsound.eq_of_metadataText_eq hothers hcounted (by simpa using heq)
    obtain ⟨table, htable, rfl, rfl⟩ := counter?_ofSchemas hsound.distinct hcounter
    exact hcounters table (hsame ▸ htable)
  files := h.files

theorem ensures_readMetadata_refusal (h : session.IsSound path) (hcounts : session.Counts Q)
    (hname : IsIdentifier name)
    (hformed : (fileIn path name Database.metadataName).isMalformed = false) :
    (Files.readMetadata (fileIn path name Database.metadataName)).Ensures session.store
      (fun _ _ => True) fun failure _ => Fits Q → failure.IsReported := by
  rw [Files.readMetadata, ensures_bind]
  have hread : (Files.readText (.readMetadata (fileIn path name Database.metadataName).path)
      (fileIn path name Database.metadataName)).Ensures session.store
        (fun text _ => session.store.get? [name, Database.metadataName] =
          some (.file (.text text))) fun _ _ => True := by
    refine Files.ensures_readText (fun text _ hread => ?_) fun _ => trivial
    obtain ⟨key, hkey, hentry⟩ := Store.read_eq_ok.1 hread
    obtain ⟨_, _, rfl⟩ :=
      (Place.locate_file hname.isStep isStep_metadataName h.store.root hformed).1 hkey
    exact hentry
  refine ((Files.ensures_readText_refusal hformed fun content =>
    h.store.exists_text_of_read hname isStep_metadataName hformed).and hread).mono
      (fun text later hread => ?_) fun _ _ hfailed _ => hfailed.1.isReported
  · obtain ⟨schemas, hsound, heq, hcounters⟩ := hcounts.files name _ hread.2
    cases heq
    refine ensures_of_runOn (Prod.ext rfl rfl) (fun _ _ => trivial) fun failure hfailed hfits => ?_
    have hparse := hsound.parse_metadataText
      fun table htable => hfits _ _ _ (hcounters table htable)
    rw [hparse] at hfailed
    cases hfailed

theorem ensures_useDatabase_counts (h : session.IsSound path) (hcounts : session.Counts Q)
    (hname : IsIdentifier name) :
    (useDatabase name).Ensures session (fun _ later => later.Counts Q)
      fun failure later => (Fits Q → failure.IsReported) ∧ later.Counts Q := by
  simp only [useDatabase, ensures_bind, ensures_get]
  split
  · exact ⟨fun _ => trivial, hcounts⟩
  rename_i hexists
  have hformed : (fileIn path name Database.metadataName).isMalformed = false := by
    have hsome := (databaseExists_iff h hname).1 (by simpa using hexists)
    obtain ⟨entry, hentry⟩ := Option.isSome_iff_exists.1 hsome
    exact (h.store.usable name _ entry hentry).2.wellFormed
  rw [ensures_bind]
  refine (ensures_close_counts h hcounts).mono (fun _ closed hclosed => ?_) fun _ _ hfailed => hfailed
  obtain ⟨hclosed, hcounts⟩ := hclosed
  simp only [ensures_bind, ensures_get, onStore, ensures_within, ensures_modify]
  rw [hclosed.metadataPlace_directoryOf]
  refine ((ensures_readMetadata hclosed.store hname).and
    (ensures_readMetadata_refusal hclosed hcounts hname hformed)).mono
      (fun members last hread => ?_) fun _ last hfailed => ?_
  · obtain ⟨⟨rfl, schemas, hsound, hcounted, htext, rfl⟩, _⟩ := hread
    rw [ensures_ofOutcome, hsound.schemasOf_describing]
    refine ⟨fun found hfound => ?_, fun failure hfailure => by cases hfailure⟩
    cases hfound
    exact hcounts.opened hsound hcounted htext
  · obtain ⟨rfl, hreported⟩ := hfailed
    exact ⟨hreported, hcounts⟩

theorem ensures_createDatabase_refusal (h : session.IsSound path) (hpath : '\x00' ∉ path)
    (hname : IsIdentifier name) :
    (createDatabase name).Ensures session (fun _ _ => True) fun failure _ => failure.IsReported := by
  have hfree : '\x00' ∉ name := hname.not_mem (by decide)
  have hdirectory : ((Place.root path).child name).isMalformed = false := by
    rw [Place.isMalformed_child _ hname.isStep, Place.isMalformed_root]
    simp [List.contains_eq_mem, hpath, hfree]
  have hfile : (fileIn path name Database.metadataName).isMalformed = false := by
    rw [fileIn, Place.isMalformed_file hname isStep_metadataName notMem_metadataName]
    simp [List.contains_eq_mem, hpath]
  have hgap : Json.gap ∉ (Json.object [(Database.tablesMember, Json.object [])]).render :=
    soundSchemas_nil.counted_iff.1 fun _ hmem => absurd hmem List.not_mem_nil
  simp only [createDatabase, ensures_bind, ensures_get]
  split
  · trivial
  simp only [ensures_bind, onStore, ensures_within]
  rw [h.metadataPlace_directoryOf, h.directoryOf_eq]
  refine (Files.ensures_change_refusal hdirectory _).mono (fun _ store _ => ?_)
    fun _ _ hrefused => hrefused.isReported
  rw [Files.writeMetadata, ensures_bind, if_neg (by simp [hgap])]
  exact (Files.ensures_change_refusal hfile _).mono (fun _ _ _ => trivial)
    fun _ _ hrefused => hrefused.isReported

theorem ensures_createDatabase_counts (h : session.IsSound path) (hcounts : session.Counts Q)
    (hname : IsIdentifier name) :
    (createDatabase name).Ensures session (fun _ later => later.Counts Q)
      fun _ later => later.Counts Q := by
  refine (ensures_createDatabase h hname).mono (fun _ later hdone => ?_) fun _ later hfailed => ?_
  · obtain ⟨_, _, store, hhas, rfl⟩ := hdone
    refine hcounts.inStore (fun _ _ hcurrent => hcurrent) fun other entry hentry => ?_
    rw [SortedMap.get?_insert] at hentry
    split at hentry
    · cases hentry
      exact .inl rfl
    · exact .inr ((hhas.get?_file other _).symm.trans hentry)
  · rcases hfailed with rfl | ⟨_, store, hhas, rfl⟩
    · exact hcounts
    · exact hcounts.inStore (fun _ _ hcurrent => hcurrent)
        fun other entry hentry => .inr ((hhas.get?_file other _).symm.trans hentry)

theorem ensures_deleteDatabase_refusal (name : Text) :
    (deleteDatabase name).Ensures session (fun _ _ => True)
      fun failure _ => failure.IsReported := by
  rw [Ensures, runOn_deleteDatabase_removeTree]
  cases session.store.entryExists (session.directoryOf name) with
  | false => trivial
  | true => cases session.store.removeTree (session.directoryOf name) <;> trivial

theorem ensures_deleteDatabase_counts (h : session.IsSound path) (hcounts : session.Counts Q)
    (hname : IsIdentifier name) :
    (deleteDatabase name).Ensures session (fun _ later => later.Counts Q)
      fun _ later => later.Counts Q := by
  refine (ensures_deleteDatabase h hname).mono (fun _ later hdone => ?_)
    fun _ later hfailed => hfailed ▸ hcounts
  rw [hdone]
  refine hcounts.inStore (fun other database hcurrent => (current_without hcurrent).1)
    fun other entry hentry => ?_
  have hkept := get?_without session name [other, Database.metadataName]
  rw [without] at hkept
  rw [hkept] at hentry
  split at hentry
  · cases hentry
  · exact .inr hentry

/-! ## Commands that change no table -/

theorem ensures_execute_unchanging (h : session.IsSound path) (hcounts : session.Counts Q)
    {command : Command} (hprintable : Spelling.Printable command)
    (haction : command.changing = none) :
    (execute command).Ensures session
      (fun result later => (∀ answer, result = some answer → answer.IsPresentable) ∧ later.Counts Q)
      fun failure later => ('\x00' ∉ path → Fits Q → failure.IsReported) ∧ later.Counts Q := by
  have hnothing : ∀ answer, (none : Option ResultSet) = some answer → answer.IsPresentable :=
    fun _ heq => by cases heq
  cases command
  case createTable | dropTable | addAttribute | dropAttribute | insert | delete | update =>
    cases haction
  case use database =>
    rw [execute, ensures_bind]
    exact (ensures_useDatabase_counts h hcounts (isIdentifier_of_isLoweredName hprintable)).mono
      (fun _ _ hdone => ⟨hnothing, hdone⟩) fun _ _ hfailed => ⟨fun _ => hfailed.1, hfailed.2⟩
  case createDatabase database =>
    have hname := isIdentifier_of_isLoweredName hprintable
    rw [execute, ensures_bind]
    by_cases hpath : '\x00' ∈ path
    · exact (ensures_createDatabase_counts h hcounts hname).mono
        (fun _ _ hdone => ⟨hnothing, hdone⟩) fun _ _ hfailed => ⟨absurd hpath, hfailed⟩
    · exact ((ensures_createDatabase_counts h hcounts hname).and
        (ensures_createDatabase_refusal h hpath hname)).mono
          (fun _ _ hdone => ⟨hnothing, hdone.1⟩) fun _ _ hfailed => ⟨fun _ _ => hfailed.2, hfailed.1⟩
  case dropDatabase database =>
    rw [execute, ensures_bind]
    exact ((ensures_deleteDatabase_counts h hcounts (isIdentifier_of_isLoweredName hprintable)).and
      (ensures_deleteDatabase_refusal database)).mono (fun _ _ hdone => ⟨hnothing, hdone.1⟩)
        fun _ _ hfailed => ⟨fun _ _ => hfailed.2, hfailed.1⟩
  case select columns table condition =>
    refine (ensures_select_answer h hcounts (Spelling.isNonempty_of_printable hprintable) table
      condition).mono (fun _ _ hdone => ?_) fun _ _ hfailed => ⟨fun _ _ => hfailed.1, hfailed.2⟩
    obtain ⟨⟨answer, rfl, hpresentable⟩, hlater⟩ := hdone
    exact ⟨fun _ heq => by cases heq; exact hpresentable, hlater⟩
  case join leftTable rightTable leftOn rightOn =>
    refine (ensures_join_answer h hcounts leftTable rightTable leftOn rightOn).mono
      (fun _ _ hdone => ?_) fun _ _ hfailed => ⟨fun _ _ => hfailed.1, hfailed.2⟩
    obtain ⟨⟨answer, rfl, hpresentable⟩, hlater⟩ := hdone
    exact ⟨fun _ heq => by cases heq; exact hpresentable, hlater⟩

end Session

end Relbase
