import Relbase.Proofs.Session.Specification

/-!
# Runs of sessions

A run is a sequence of queries and new sessions on one root, begun with nothing in it.
Whatever a command does is one of a few steps of the session, all of which keep it sound;
so every run leads to a sound session.
-/

namespace Relbase.Session

open Relbase.Action

variable {path name : Text} {session later : Session}

/-! ## Steps -/

inductive Step (path : Text) (session : Session) : Session → Prop
  | works {later : Session} (hworks : Works path session later) : Step path session later
  | commits {later : Session} (hcommits : Commits path session later) : Step path session later
  | stalls {later : Session} (hstalls : Stalls path session later) : Step path session later
  | left {store : Store} (hleaves : Leaves path session store) : Step path session (session.left store)
  | opened {name : Text} {store : Store} {schemas : List (Text × Schema)}
      (hname : IsIdentifier name) (hleaves : Leaves path session store)
      (hsound : SoundSchemas schemas) (hcounted : AllCounted schemas)
      (htext : store.get? [name, Database.metadataName] =
        some (.file (.text (metadataText schemas)))) :
      Step path session (session.opened store name schemas)
  | created {name : Text} {store : Store} (hname : IsIdentifier name)
      (hnew : session.store.get? [name, Database.metadataName] = none)
      (husable : (fileIn path name Database.metadataName).IsUsable)
      (hhas : HasDirectory session.store name store) :
      Step path session { session with
        store := store.insert [name, Database.metadataName] (.file (.text (metadataText []))) }
  | unfinished {name : Text} {store : Store} (hname : IsIdentifier name)
      (hunusable : ¬ (fileIn path name Database.metadataName).IsUsable)
      (hhas : HasDirectory session.store name store) : Step path session { session with store }
  | deleted {name : Text} (hname : IsIdentifier name) : Step path session (session.without name)

theorem ensures_select (h : session.IsSound path) (columns : Columns) (table : Text)
    (condition : Option Condition) :
    (execute (.select columns table condition)).Ensures session
      (fun _ later => Works path session later) fun _ later => Works path session later := by
  rw [execute, ensures_bind]
  refine (ensures_loading h table).mono (fun found later hloaded => ?_) fun _ _ hworks => hworks
  obtain ⟨name, database, workspace, hcurrent, hsteps, hstore, rfl⟩ := hloaded
  simp only [ensures_bind, ensures_ofOutcome, ensures_pure]
  exact ⟨fun _ _ => .steps hcurrent hsteps hstore, fun _ _ => .steps hcurrent hsteps hstore⟩

theorem ensures_join (h : session.IsSound path) (leftTable rightTable leftOn rightOn : Text) :
    (execute (.join leftTable rightTable leftOn rightOn)).Ensures session
      (fun _ later => Works path session later) fun _ later => Works path session later := by
  rw [execute, ensures_bind]
  refine (ensures_loading h leftTable).mono (fun left middle hloaded => ?_) fun _ _ hworks => hworks
  obtain ⟨name, database, workspace, hcurrent, hfirst, hstore, rfl⟩ := hloaded
  have hmiddle := (Works.steps hcurrent hfirst hstore).isSound h
  rw [ensures_bind]
  refine (ensures_loading hmiddle rightTable).mono (fun right later hloaded => ?_)
    fun _ later hworks => ?_
  · obtain ⟨_, _, last, hentered, hsecond, hlast, rfl⟩ := hloaded
    cases hentered
    have hworks : Works path session (session.entered name last) :=
      .steps hcurrent (hfirst.trans hsecond) (hlast.trans hstore)
    simp only [ensures_bind, ensures_ofOutcome, ensures_pure]
    exact ⟨fun _ _ => hworks, fun _ _ => hworks⟩
  · cases hworks with
    | idle => exact .steps hcurrent hfirst hstore
    | steps hentered hsecond hlast =>
        cases hentered
        exact .steps hcurrent (hfirst.trans hsecond) (hlast.trans hstore)

theorem ensures_execute (h : session.IsSound path) {command : Command}
    (hprintable : Spelling.Printable command) :
    (execute command).Ensures session (fun _ later => Step path session later)
      fun _ later => Step path session later := by
  have hchange (hcommand : command.IsChange) :
      (execute command).Ensures session (fun _ later => Step path session later)
        fun _ later => Step path session later :=
    (ensures_execute_change h hprintable hcommand).mono (fun _ _ hcommits => .commits hcommits)
      fun _ _ hfailed => hfailed.elim .works .stalls
  cases command with
  | use database =>
      have hname := isIdentifier_of_isLoweredName hprintable
      refine ensures_discard none ((ensures_useDatabase h hname).mono (fun _ later hdone => ?_)
        fun _ later hfailed => ?_)
      · obtain ⟨store, schemas, hleaves, hsound, hcounted, htext, rfl⟩ := hdone
        exact .opened hname hleaves hsound hcounted htext
      · rcases hfailed with rfl | hstalls | ⟨store, hleaves, rfl⟩
        · exact .works .idle
        · exact .stalls hstalls
        · exact .left hleaves
  | createDatabase database =>
      have hname := isIdentifier_of_isLoweredName hprintable
      refine ensures_discard none ((ensures_createDatabase h hname).mono (fun _ later hdone => ?_)
        fun _ later hfailed => ?_)
      · obtain ⟨hnew, husable, store, hhas, rfl⟩ := hdone
        exact .created hname hnew husable hhas
      · rcases hfailed with rfl | ⟨hunusable, store, hhas, rfl⟩
        · exact .works .idle
        · exact .unfinished hname hunusable hhas
  | dropDatabase database =>
      have hname := isIdentifier_of_isLoweredName hprintable
      exact ensures_discard none ((ensures_deleteDatabase h hname).mono
        (fun _ later hdone => hdone ▸ .deleted hname) fun _ later hfailed => hfailed ▸ .works .idle)
  | select columns table condition =>
      exact (ensures_select h columns table condition).mono (fun _ _ hworks => .works hworks)
        fun _ _ hworks => .works hworks
  | join leftTable rightTable leftOn rightOn =>
      exact (ensures_join h leftTable rightTable leftOn rightOn).mono
        (fun _ _ hworks => .works hworks) fun _ _ hworks => .works hworks
  | createTable table names displayName => exact hchange trivial
  | dropTable table => exact hchange trivial
  | addAttribute table name => exact hchange trivial
  | dropAttribute table name => exact hchange trivial
  | insert table values => exact hchange trivial
  | delete table condition => exact hchange trivial
  | update table assignments condition => exact hchange trivial

/-! ## Soundness -/

theorem IsSound.opened (h : session.IsSound path) {store : Store}
    {schemas : List (Text × Schema)} (hname : IsIdentifier name) (horderly : store.IsOrderly path)
    (hsound : SoundSchemas schemas)
    (htext : store.get? [name, Database.metadataName] =
      some (.file (.text (metadataText schemas)))) :
    (session.opened store name schemas).IsSound path where
  root := h.root
  store := horderly
  current other database hcurrent := by
    cases hcurrent
    refine ⟨horderly, hname, by rw [Database.ofSchemas, h.root], fun key registration hget => ?_,
      by rw [Session.opened, htext]; rfl⟩
    rw [OrderedMap.get?_eq_some_iff, Database.entries_ofSchemas _ hsound.distinct] at hget
    obtain ⟨entry, hentry, heq⟩ := List.mem_map.1 hget
    cases heq
    exact ⟨hsound.sound entry hentry, fun table htable => by cases htable⟩

theorem HasDirectory.get?_file {store later : Store} (h : HasDirectory store name later)
    (other file : Text) : later.get? [other, file] = store.get? [other, file] := by
  cases h with
  | found _ => rfl
  | made _ => rw [SortedMap.get?_insert, if_neg (by simp)]

theorem get?_without (session : Session) (name : Text) (key : Key) :
    (session.without name).store.get? key =
      if [name].isPrefixOf key then none else session.store.get? key := by
  rw [without, SortedMap.get?_filter session.store fun key => !List.isPrefixOf [name] key]
  cases [name].isPrefixOf key <;> rfl

theorem current_without {other : Text} {database : Database}
    (h : (session.without name).current = some (other, database)) :
    session.current = some (other, database) ∧ other ≠ name := by
  simp only [without] at h
  split at h
  · cases h
  · rename_i hdatabase
    refine ⟨h, ?_⟩
    rintro rfl
    exact hdatabase (by rw [databaseName, h]; rfl)

theorem Step.isSound (hstep : Step path session later) (h : session.IsSound path) :
    later.IsSound path := by
  cases hstep with
  | works hworks => exact hworks.isSound h
  | commits hcommits => exact hcommits.isSound h
  | stalls hstalls => exact hstalls.isSound h
  | left hleaves => exact h.left (hleaves.isOrderly h)
  | opened hname hleaves hsound _ htext => exact h.opened hname (hleaves.isOrderly h) hsound htext
  | created hname _ husable hhas =>
      have horderly := (hhas.isOrderly h.store hname).insertFile hhas.get? isStep_metadataName husable
        fun _ => ⟨[], soundSchemas_nil, rfl⟩
      refine ⟨h.root, horderly, fun other database hcurrent => ?_⟩
      have hworkspace := h.current other database hcurrent
      refine hworkspace.inStore horderly ?_
      rw [SortedMap.get?_insert]
      split
      · rfl
      · rw [hhas.get?_file]
        exact hworkspace.metadata
  | unfinished hname _ hhas =>
      have horderly := hhas.isOrderly h.store hname
      refine ⟨h.root, horderly, fun other database hcurrent => ?_⟩
      have hworkspace := h.current other database hcurrent
      exact hworkspace.inStore horderly (by rw [hhas.get?_file]; exact hworkspace.metadata)
  | deleted hname =>
      rename_i deleted
      have horderly := h.store.removeTree deleted
      refine ⟨h.root, horderly, fun other database hcurrent => ?_⟩
      obtain ⟨hcurrent, hne⟩ := current_without hcurrent
      have hworkspace := h.current other database hcurrent
      refine hworkspace.inStore horderly ?_
      rw [get?_without, if_neg (by simp [Ne.symm hne])]
      exact hworkspace.metadata

/-! ## Runs -/

/-- What can happen to a session: a query, or a new session on the same root. -/
inductive Event where
  | query (text : Text)
  | reopening
  deriving DecidableEq, Repr

def react (session : Session) : Event → Session
  | .query text => ((executeText text).runOn session).2
  | .reopening => session.left session.store

def after (path : Text) (events : List Event) : Session :=
  events.foldl react (start path Store.emptyRoot)

theorem ensures_executeText (h : session.IsSound path) (text : Text) :
    (executeText text).Ensures session (fun _ later => Step path session later)
      fun _ later => Step path session later := by
  rw [executeText]
  split
  · rename_i command hcommand
    exact ensures_execute h (Spelling.printable_of_ofText hcommand)
  · exact .works .idle

theorem isSound_react (h : session.IsSound path) (event : Event) :
    (session.react event).IsSound path := by
  cases event with
  | query text =>
      exact ((ensures_executeText h text).mono (fun _ _ hstep => hstep.isSound h)
        fun _ _ hstep => hstep.isSound h).finally
  | reopening => exact h.left h.store

theorem isSound_after (path : Text) (events : List Event) : (after path events).IsSound path := by
  have hfold : ∀ (events : List Event) (session : Session), session.IsSound path →
      (events.foldl react session).IsSound path := by
    intro events
    induction events with
    | nil => exact fun _ h => h
    | cons event rest ih => exact fun session h => ih _ (isSound_react h event)
  exact hfold events _ (isSound_start path)

end Relbase.Session
