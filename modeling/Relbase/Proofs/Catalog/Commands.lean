import Relbase.Proofs.Catalog.Workbenches
import Relbase.Proofs.Session.Run

/-!
# Commands on a catalog

A catalog represents a session if they have one root and one store, and what is in use by the two
fields of the catalog is what is in use in the session.  Every command has the same outcome on a
catalog as on the session that it represents, and leaves a catalog that represents the session
that the command leaves.
-/

namespace Relbase

open Relbase.Action

theorem bind_eq_ok {ε α β : Type} {action : Except ε α} {next : α → Except ε β} {result : β} :
    action >>= next = .ok result ↔ ∃ first, action = .ok first ∧ next first = .ok result := by
  cases action <;> simp [bind, Except.bind]

theorem forall_mem_of_mapM_eq_ok {ε α β : Type} {f : α → Except ε β} {P : β → Prop}
    (hf : ∀ item result, f item = .ok result → P result) {items : List α} {results : List β}
    (h : items.mapM f = .ok results) : ∀ result ∈ results, P result := by
  induction items generalizing results with
  | nil =>
      cases h
      exact fun _ hmem => absurd hmem List.not_mem_nil
  | cons item rest ih =>
      rw [List.mapM_cons] at h
      obtain ⟨first, hfirst, h⟩ := bind_eq_ok.1 h
      obtain ⟨others, hothers, heq⟩ := bind_eq_ok.1 h
      cases heq
      exact List.forall_mem_cons.2 ⟨hf item first hfirst, ih hothers⟩

theorem Session.lower_of_schemasOf {members : List (Text × Json)} {schemas : List (Text × Schema)}
    (h : schemasOf members = .ok schemas) : ∀ entry ∈ schemas, entry.1.lower = entry.1 := by
  obtain ⟨tables, -, hschemas⟩ := bind_eq_ok.1 h
  refine forall_mem_of_mapM_eq_ok (fun entry named hnamed => ?_) hschemas
  obtain ⟨schema, -, heq⟩ := bind_eq_ok.1 hnamed
  cases heq
  exact Text.lower_lower entry.1

namespace Catalog

inductive Represents : Catalog → Session → Prop
  | idle (root : Place) (store : Store) (heap : SchemaHeap) :
      Represents ⟨root, store, heap, none, none⟩ ⟨root, store, none⟩
  | inUse {heap : SchemaHeap} {opened : OpenDatabase} {database : Database}
      (h : opened.Represents heap database) (root : Place) (store : Store) (name : Text) :
      Represents ⟨root, store, heap, some name, some opened⟩ ⟨root, store, some (name, database)⟩

variable {catalog : Catalog} {session : Session}

theorem agree_onStore {α : Type} (h : catalog.Represents session) (action : Action Store α) :
    Agree Represents (onStore action) (Session.onStore action) catalog session := by
  cases h with
  | idle root store heap => exact ⟨rfl, .idle root _ heap⟩
  | inUse h root store name => exact ⟨rfl, .inUse h root _ name⟩

theorem agree_onDatabase {α : Type} (h : catalog.Represents session) {action : Action Workbench α}
    {twin : Action Workspace α}
    (haction : ∀ bench workspace, Workbench.Represents bench workspace →
      Agree Workbench.Represents action twin bench workspace) :
    Agree Represents (onDatabase action) (Session.onWorkspace twin) catalog session := by
  cases h with
  | idle root store heap => exact ⟨rfl, .idle root store heap⟩
  | @inUse heap opened database h root store name =>
      obtain ⟨houtcome, hrelated⟩ := haction _ _ (.intro h store)
      rcases hfirst : action.runOn ⟨heap, opened, store⟩ with ⟨outcome, bench⟩
      rcases hsecond : twin.runOn ⟨database, store⟩ with ⟨other, workspace⟩
      rw [hfirst, hsecond] at houtcome hrelated
      cases houtcome
      obtain ⟨hlater, store⟩ := hrelated
      constructor <;> simp only [onDatabase, Session.onWorkspace, runOn_get_bind, hfirst, hsecond]
      · rfl
      · exact .inUse hlater root store name

theorem agree_save (h : catalog.Represents session) :
    Agree Represents save Session.save catalog session := by
  have hsave := agree_onDatabase h fun _ _ => Workbench.agree_save
  cases h with
  | idle root store heap => exact ⟨rfl, .idle root store heap⟩
  | inUse h root store name => exact ⟨hsave.outcome, hsave.related⟩

theorem agree_leave (h : catalog.Represents session) :
    Agree Represents leave (modify fun session => { session with current := none }) catalog
      session := by
  cases h with
  | idle root store heap => exact ⟨rfl, .idle root store heap⟩
  | inUse h root store name => exact ⟨rfl, .idle root store _⟩

theorem agree_close (h : catalog.Represents session) :
    Agree Represents close Session.close catalog session := by
  have hclose := (agree_save h).bind fun _ _ _ hlater => agree_leave hlater
  cases h with
  | idle root store heap => exact ⟨rfl, .idle root store heap⟩
  | inUse h root store name => exact ⟨hclose.outcome, hclose.related⟩

/-! ## Databases -/

theorem Represents.root_eq (h : catalog.Represents session) : catalog.root = session.root := by
  cases h <;> rfl

theorem Represents.store_eq (h : catalog.Represents session) : catalog.store = session.store := by
  cases h <;> rfl

theorem Represents.databaseName_eq (h : catalog.Represents session) :
    catalog.databaseName = session.databaseName := by
  cases h <;> rfl

theorem Represents.directoryOf_eq (h : catalog.Represents session) (name : Text) :
    catalog.directoryOf name = session.directoryOf name := by
  rw [directoryOf, Session.directoryOf, h.root_eq]

theorem Represents.databaseExists_eq (h : catalog.Represents session) (name : Text) :
    catalog.databaseExists name = session.databaseExists name := by
  rw [databaseExists, Session.databaseExists, h.store_eq, h.directoryOf_eq]

theorem agree_createDatabase (h : catalog.Represents session) (name : Text) :
    Agree Represents (createDatabase name) (Session.createDatabase name) catalog session := by
  rw [createDatabase, Session.createDatabase]
  refine agree_get_bind ?_
  rw [h.databaseExists_eq, h.directoryOf_eq]
  cases session.databaseExists name with
  | true => exact ⟨rfl, h⟩
  | false => exact (agree_onStore h _).bind fun _ _ _ hlater => agree_onStore hlater _

theorem agree_useDatabase (h : catalog.Represents session) (name : Text) :
    Agree Represents (useDatabase name) (Session.useDatabase name) catalog session := by
  rw [useDatabase, Session.useDatabase]
  refine agree_get_bind ?_
  rw [h.databaseExists_eq]
  cases session.databaseExists name with
  | false => exact ⟨rfl, h⟩
  | true =>
      -- The schemas that are read become new objects; nothing is said of those that are left.
      refine (agree_close h).bind fun _ closed left hclosed => agree_get_bind ?_
      rw [hclosed.directoryOf_eq]
      refine (agree_onStore hclosed _).bind fun members later last hlater => ?_
      cases hschemas : Session.schemasOf members with
      | error failure => exact ⟨rfl, hlater⟩
      | ok schemas =>
          have hopened := OpenDatabase.represents_ofSchemas (later.heap.makes_makeAll schemas)
            (Session.lower_of_schemasOf hschemas) (left.directoryOf name)
          obtain ⟨root, store, heap, _, _⟩ := later
          cases hlater.root_eq
          cases hlater.store_eq
          exact ⟨rfl, .inUse hopened last.root last.store name⟩

theorem agree_deleteDatabase (h : catalog.Represents session) (name : Text) :
    Agree Represents (deleteDatabase name) (Session.deleteDatabase name) catalog session := by
  rw [deleteDatabase, Session.deleteDatabase]
  refine agree_get_bind ?_
  rw [h.directoryOf_eq, h.store_eq, h.databaseName_eq]
  dsimp only
  cases session.store.entryExists (session.directoryOf name) with
  | false => exact ⟨rfl, h⟩
  | true =>
      by_cases hname : session.databaseName = some name
      · rw [if_pos hname, if_pos hname]
        have hdelete := (agree_leave h).bind fun _ _ _ hlater =>
          agree_onStore hlater (Files.deleteTree (session.directoryOf name))
        exact ⟨hdelete.outcome, hdelete.related⟩
      · rw [if_neg hname, if_neg hname]
        exact agree_onStore h _

/-! ## Commands -/

theorem agree_changeTable (h : catalog.Represents session) (name : Text)
    (change : Action Table Unit) :
    Agree Represents (changeTable name change) (Session.changeTable name change) catalog session :=
  (agree_onDatabase h fun _ _ h => Workbench.agree_onTable h name change).bind
    fun _ _ _ hlater => agree_save hlater

theorem agree_execute (h : catalog.Represents session) (command : Command) :
    Agree Represents (execute command) (Session.execute command) catalog session := by
  have hdiscard {action : Action Catalog Unit} {twin : Action Session Unit}
      (haction : Agree Represents action twin catalog session) :
      Agree Represents (action >>= fun _ => pure (none : Option ResultSet))
        (twin >>= fun _ => pure none) catalog session :=
    haction.bind fun _ _ _ hlater => agree_pure none hlater
  have hchange {action : Action Workbench Unit} {twin : Action Workspace Unit}
      (haction : ∀ bench workspace, Workbench.Represents bench workspace →
        Agree Workbench.Represents action twin bench workspace) :
      Agree Represents (onDatabase action >>= fun _ => save >>= fun _ =>
          pure (none : Option ResultSet))
        (Session.onWorkspace twin >>= fun _ => Session.save >>= fun _ => pure none) catalog session :=
    (agree_onDatabase h haction).bind fun _ _ _ hlater =>
      (agree_save hlater).bind fun _ _ _ hlast => agree_pure none hlast
  cases command with
  | use database => exact hdiscard (agree_useDatabase h database)
  | createDatabase database => exact hdiscard (agree_createDatabase h database)
  | dropDatabase database => exact hdiscard (agree_deleteDatabase h database)
  | createTable table names displayName =>
      exact hchange fun _ _ h => Workbench.agree_createTable h _ names
  | dropTable table => exact hchange fun _ _ h => Workbench.agree_dropTable h table
  | addAttribute table name => exact hdiscard (agree_changeTable h table _)
  | dropAttribute table name => exact hdiscard (agree_changeTable h table _)
  | insert table values => exact hdiscard (agree_changeTable h table _)
  | delete table condition => exact hdiscard (agree_changeTable h table _)
  | update table assignments condition => exact hdiscard (agree_changeTable h table _)
  | select columns table condition =>
      refine (agree_onDatabase h fun _ _ h => Workbench.agree_lookUp h table).bind
        fun found _ _ hlater => ?_
      exact (agree_ofOutcome _ hlater).bind fun _ _ _ hlast => agree_pure _ hlast
  | join leftTable rightTable leftOn rightOn =>
      refine (agree_onDatabase h fun _ _ h => Workbench.agree_lookUp h leftTable).bind
        fun left _ _ hmiddle => ?_
      refine (agree_onDatabase hmiddle fun _ _ h => Workbench.agree_lookUp h rightTable).bind
        fun right _ _ hlater => ?_
      exact (agree_ofOutcome _ hlater).bind fun _ _ _ hlast => agree_pure _ hlast

/-- A query has the same outcome on a catalog as on the session that it represents. -/
theorem agree_executeText (h : catalog.Represents session) (text : Text) :
    Agree Represents (executeText text) (Session.executeText text) catalog session := by
  rw [executeText, Session.executeText]
  cases Command.ofText text with
  | ok command => exact agree_execute h command
  | error fault => exact ⟨rfl, h⟩

end Catalog

end Relbase
