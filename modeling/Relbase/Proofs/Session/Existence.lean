import Relbase.Proofs.Registering
import Relbase.Proofs.Session.Damage

/-!
# Whether a database is there

A database is a directory with a metadata file.  Creating and opening one go by that, and no
other of their failures can be taken for an answer to it.  Deleting one goes by less: whatever
lies under the name is taken for the database, so that a directory without metadata is removed
with all that is in it.  Nothing is assumed about the session or its files.
-/

namespace Relbase

open Relbase.Action

/-! ## Failures that are about something else -/

def Failure.isOfExistence : Failure → Bool
  | .reported (.duplicateDatabase _) => true
  | .reported (.databaseNotFound _) => true
  | _ => false

theorem Failure.isOfExistence_iff {failure : Failure} :
    failure.isOfExistence = true ↔
      failure.errorClass = .inl .duplicateDatabase ∨
        failure.errorClass = .inl .databaseNotFound := by
  rcases failure with error | fault
  · cases error <;> simp [isOfExistence, errorClass, DbError.errorClass]
  · simp [isOfExistence, errorClass]

theorem Failure.IsOfFiles.not_isOfExistence {failure : Failure} (h : failure.IsOfFiles) :
    failure.isOfExistence = false := by
  rw [Bool.eq_false_iff, Ne, isOfExistence_iff]
  exact not_or.2 ⟨h.errorClass_ne nofun, h.errorClass_ne nofun⟩

def IsSilent {α : Type} (outcome : Except Failure α) : Prop :=
  ∀ failure, outcome = .error failure → failure.isOfExistence = false

section

variable {α β : Type}

theorem isSilent_ok (result : α) : IsSilent (.ok result) :=
  fun _ h => by cases h

theorem isSilent_error {failure : Failure} (h : failure.isOfExistence = false) :
    IsSilent (.error failure : Except Failure α) := by
  rintro other heq
  cases heq
  exact h

theorem IsSilent.bind {outcome : Except Failure α} {next : α → Except Failure β}
    (h : IsSilent outcome) (hnext : ∀ result, IsSilent (next result)) :
    IsSilent (outcome >>= next) := by
  cases outcome with
  | ok result => exact hnext result
  | error failure => exact isSilent_error (h failure rfl)

theorem isSilent_mapM {f : α → Except Failure β} (h : ∀ item, IsSilent (f item))
    (items : List α) : IsSilent (items.mapM f) := by
  intro failure hfailure
  obtain ⟨_, item, _, _, _, hitem⟩ := mapM_eq_error.1 hfailure
  exact h item failure hitem

end

def Action.KeepsSilent {σ α : Type} (action : Action σ α) (state : σ) : Prop :=
  action.Ensures state (fun _ _ => True) fun failure _ => failure.isOfExistence = false

namespace Schema

theorem isSilent_malformed {α : Type} (fault : SchemaFault) :
    IsSilent (malformed fault : Except Failure α) :=
  isSilent_error rfl

theorem isSilent_elementsOf (value : Json) : IsSilent (elementsOf value) := by
  rw [elementsOf.eq_def]
  split
  · exact isSilent_ok []
  · split
    · exact isSilent_ok _
    · exact isSilent_ok _
    · exact isSilent_ok _
    · exact isSilent_malformed _

theorem isSilent_addElements (set : AttributeSet) (items : List Json) :
    IsSilent (addElements set items) := by
  fun_induction addElements set items with
  | case1 => exact isSilent_ok _
  | case2 set name rest larger _ ih => exact ih
  | case3 set name rest error hadd =>
      rw [AttributeSet.add] at hadd
      split at hadd
      · cases hadd
        exact isSilent_error rfl
      · cases hadd
  | case4 => exact isSilent_error rfl

theorem isSilent_counterOf (value : Json) : IsSilent (counterOf value) := by
  rw [counterOf.eq_def]
  split
  · exact isSilent_ok _
  · exact isSilent_ok _
  · split
    · exact isSilent_malformed _
    · split
      · exact isSilent_error rfl
      · exact isSilent_ok _
  · split
    · exact isSilent_ok _
    · exact isSilent_malformed _
    · exact isSilent_malformed _
  · exact isSilent_malformed _

theorem isSilent_membersOf (value : Json) : IsSilent (membersOf value) := by
  rw [membersOf.eq_def]
  split
  · exact isSilent_ok _
  · exact isSilent_malformed _

theorem isSilent_member (members : List (Text × Json)) (name : Text) :
    IsSilent (member members name) := by
  rw [member]
  split
  · exact isSilent_ok _
  · exact isSilent_malformed _

theorem isSilent_ofJson (json : Json) : IsSilent (ofJson json) :=
  (isSilent_membersOf json).bind fun members =>
    (isSilent_member members nameMember).bind fun _ =>
      (isSilent_member members attributesMember).bind fun attributes =>
        (isSilent_elementsOf attributes).bind fun items =>
          (isSilent_addElements .empty items).bind fun _ =>
            (isSilent_member members counterMember).bind fun counter =>
              (isSilent_counterOf counter).bind fun _ => isSilent_ok _

end Schema

namespace Files

variable {store : Store} {place : Place}

theorem keepsSilent_change (task : StorageTask) (operation : Store → Except FileCause Store) :
    (change task place operation).KeepsSilent store :=
  (ensures_change_files task operation).mono (fun _ _ _ => trivial)
    fun _ _ hfailed => hfailed.1.not_isOfExistence

theorem keepsSilent_writeMetadata (place : Place) (json : Json) (store : Store) :
    (writeMetadata place json).KeepsSilent store := by
  rw [KeepsSilent, writeMetadata, ensures_bind]
  refine (keepsSilent_change _ _).mono (fun _ later _ => ?_) fun _ _ hfailed => hfailed
  split
  · exact rfl
  · trivial

theorem isSilent_readMetadata (place : Place) (store : Store) :
    IsSilent ((readMetadata place).runOn store).1 := by
  rw [outcome_readMetadata]
  refine .bind ?_ fun text => ?_
  · rw [outcome_readText]
    split
    · exact isSilent_error rfl
    · split
      · exact isSilent_error rfl
      · exact isSilent_ok _
      · exact isSilent_error rfl
  · rw [decoded]
    split
    · rw [unreadable]
      split <;> exact isSilent_error rfl
    · exact isSilent_ok _
    · exact isSilent_error rfl

end Files

namespace Workspace

theorem keepsSilent_onStore {workspace : Workspace} {action : Action Store Unit}
    (h : action.KeepsSilent workspace.store) : (onStore action).KeepsSilent workspace := by
  rw [KeepsSilent, onStore, ensures_within]
  exact h

theorem keepsSilent_writeTables (workspace : Workspace) (tables : List (Text × Table)) :
    (writeTables tables).KeepsSilent workspace := by
  induction tables generalizing workspace with
  | nil => trivial
  | cons entry rest ih =>
      simp only [KeepsSilent, writeTables, writeTable, ensures_bind, ensures_get]
      exact (keepsSilent_onStore (Files.keepsSilent_change _ _)).mono (fun _ later _ => ih later)
        fun _ _ hfailed => hfailed

theorem keepsSilent_save (workspace : Workspace) : save.KeepsSilent workspace := by
  simp only [KeepsSilent, save, ensures_bind, ensures_get]
  exact (keepsSilent_onStore (Files.keepsSilent_writeMetadata _ _ _)).mono
    (fun _ later _ => keepsSilent_writeTables later _) fun _ _ hfailed => hfailed

end Workspace

namespace Session

variable {session : Session} {name : Text}

theorem keepsSilent_close (session : Session) : close.KeepsSilent session :=
  ensures_close_of_save (fun _ => trivial) fun _ database _ =>
    Workspace.keepsSilent_save ⟨database, session.store⟩

theorem isSilent_schemasOf (members : List (Text × Json)) : IsSilent (schemasOf members) := by
  refine .bind ?_ fun tables => isSilent_mapM (fun entry => ?_) tables
  · rw [descriptions]
    split
    · exact isSilent_ok _
    · split
      · exact isSilent_ok _
      · exact isSilent_error rfl
  · exact (Schema.isSilent_ofJson entry.2).bind fun _ => isSilent_ok _

/-! ## What the operations answer -/

def Refuses {α : Type} (session : Session) (action : Action Session α) (kind : ErrorClass) : Prop :=
  ∃ failure later, action.runOn session = (.error failure, later) ∧ failure.errorClass = .inl kind

theorem not_refuses_of_keepsSilent {α : Type} {action : Action Session α}
    (h : action.KeepsSilent session) :
    ¬ session.Refuses action .duplicateDatabase ∧ ¬ session.Refuses action .databaseNotFound := by
  constructor <;> rintro ⟨failure, later, hrun, hclass⟩
  · exact Bool.eq_false_iff.1 (h.of_error hrun) (Failure.isOfExistence_iff.2 (.inl hclass))
  · exact Bool.eq_false_iff.1 (h.of_error hrun) (Failure.isOfExistence_iff.2 (.inr hclass))

theorem keepsSilent_onStore {action : Action Store Unit} (h : action.KeepsSilent session.store) :
    (onStore action).KeepsSilent session := by
  rw [KeepsSilent, onStore, ensures_within]
  exact h

theorem refuses_createDatabase_iff :
    session.Refuses (createDatabase name) .duplicateDatabase ↔
      session.databaseExists name = true := by
  cases hexists : session.databaseExists name with
  | true =>
      refine iff_of_true ⟨.reported (.duplicateDatabase name), session, ?_, rfl⟩ rfl
      rw [createDatabase, runOn_get_bind, if_pos hexists]
      rfl
  | false =>
      refine iff_of_false (not_refuses_of_keepsSilent ?_).1 Bool.false_ne_true
      simp only [KeepsSilent, createDatabase, ensures_bind, ensures_get, hexists,
        Bool.false_eq_true, if_false]
      exact (keepsSilent_onStore (Files.keepsSilent_change _ _)).mono
        (fun _ _ _ => keepsSilent_onStore (Files.keepsSilent_writeMetadata _ _ _))
        fun _ _ hfailed => hfailed

theorem refuses_useDatabase_iff :
    session.Refuses (useDatabase name) .databaseNotFound ↔
      session.databaseExists name = false := by
  cases hexists : session.databaseExists name with
  | false =>
      exact iff_of_true ⟨_, session, runOn_useDatabase_of_missing hexists, rfl⟩ rfl
  | true =>
      refine iff_of_false (not_refuses_of_keepsSilent ?_).2 nofun
      have hclose := keepsSilent_close session
      rw [KeepsSilent, Ensures, runOn_useDatabase hexists]
      rcases hrun : close.runOn session with ⟨failure | _, closed⟩
      · exact hclose.of_error hrun
      · have hread := (Files.isSilent_readMetadata (Database.metadataPlace
          (session.directoryOf name)) closed.store).bind isSilent_schemasOf
        cases hschemas : ((Files.readMetadata (Database.metadataPlace
            (session.directoryOf name))).runOn closed.store).1 >>= schemasOf with
        | ok schemas =>
            simp only [hschemas]
        | error failure =>
            simp only [hschemas]
            exact hread failure hschemas

theorem refuses_deleteDatabase_iff :
    session.Refuses (deleteDatabase name) .databaseNotFound ↔
      session.store.entryAt? (session.directoryOf name) = none := by
  rw [Refuses, runOn_deleteDatabase_removeTree, Store.entryExists]
  cases session.store.entryAt? (session.directoryOf name) with
  | none => exact iff_of_true ⟨_, session, rfl, rfl⟩ rfl
  | some entry =>
      refine iff_of_false ?_ (Option.some_ne_none entry)
      rintro ⟨failure, later, hrun, hclass⟩
      cases hremove : session.store.removeTree (session.directoryOf name) with
      | ok store => simp [hremove] at hrun
      | error cause =>
          simp only [hremove, Option.isSome_some, if_true, Prod.mk.injEq,
            Except.error.injEq] at hrun
          obtain ⟨rfl, _⟩ := hrun
          cases hclass

/-- Something lies under a name that is no database: a directory without a metadata file, or a
file. -/
def IsForeign (session : Session) (name : Text) : Prop :=
  (session.store.entryAt? (session.directoryOf name)).isSome = true ∧
    session.databaseExists name = false

theorem isSome_entryAt?_of_databaseExists (hexists : session.databaseExists name = true) :
    (session.store.entryAt? (session.directoryOf name)).isSome = true := by
  rw [databaseExists, Bool.and_eq_true, Store.isDirectory, beq_iff_eq] at hexists
  simp [hexists.1]

theorem exists_runOn_deleteDatabase
    (hentry : session.store.entryAt? (session.directoryOf name) = some .directory) :
    ∃ later key, (deleteDatabase name).runOn session = (.ok (), later) ∧
      session.store.locate (session.directoryOf name) = .ok key ∧
        ∀ below, later.store.get? below =
          if key <+: below then none else session.store.get? below := by
  obtain ⟨_, key, hkey, hdirectory⟩ := Store.entryAt?_eq_some.1 hentry
  have hremove := Store.removeTree_eq_ok.2 ⟨key, hkey, hdirectory, rfl⟩
  have hexists : session.store.entryExists (session.directoryOf name) = true := by
    rw [Store.entryExists, hentry]
    rfl
  rw [runOn_deleteDatabase_removeTree, if_pos hexists, hremove]
  refine ⟨_, key, rfl, hkey, fun below => ?_⟩
  rw [SortedMap.get?_filter]
  by_cases hbelow : key <+: below
  · simp [hbelow]
  · simp [hbelow]

theorem refuses_deleteDatabase_of_file {content : Content}
    (hentry : session.store.entryAt? (session.directoryOf name) = some (.file content)) :
    session.Refuses (deleteDatabase name) .storage := by
  obtain ⟨_, key, hkey, hfile⟩ := Store.entryAt?_eq_some.1 hentry
  have hremove : session.store.removeTree (session.directoryOf name) = .error .notDirectory := by
    rw [Store.removeTree, hkey]
    simp only [bind, Except.bind, hfile]
  have hexists : session.store.entryExists (session.directoryOf name) = true := by
    rw [Store.entryExists, hentry]
    rfl
  rw [Refuses, runOn_deleteDatabase_removeTree, if_pos hexists, hremove]
  exact ⟨_, _, rfl, rfl⟩

/-- To create a database is refused as a duplicate exactly if it is there, and to open it is
refused for want of it exactly if it is not.  To delete it is refused for want of it exactly if
nothing at all lies under the name: that agrees with the others unless something foreign lies
there, and then a directory is deleted with all that is in it, and a file is refused as such. -/
theorem deletion_agrees_iff_not_isForeign (session : Session) (name : Text) :
    (session.databaseExists name = true ↔
        session.Refuses (createDatabase name) .duplicateDatabase) ∧
      (session.databaseExists name = false ↔
        session.Refuses (useDatabase name) .databaseNotFound) ∧
      (session.store.entryAt? (session.directoryOf name) = none ↔
        session.Refuses (deleteDatabase name) .databaseNotFound) ∧
      ((session.databaseExists name = false ↔
          session.Refuses (deleteDatabase name) .databaseNotFound) ↔ ¬ session.IsForeign name) ∧
      (session.store.entryAt? (session.directoryOf name) = some .directory →
        ∃ later key, (deleteDatabase name).runOn session = (.ok (), later) ∧
          session.store.locate (session.directoryOf name) = .ok key ∧
            ∀ below, later.store.get? below =
              if key <+: below then none else session.store.get? below) ∧
      ∀ content, session.store.entryAt? (session.directoryOf name) = some (.file content) →
        session.Refuses (deleteDatabase name) .storage := by
  refine ⟨refuses_createDatabase_iff.symm, refuses_useDatabase_iff.symm,
    refuses_deleteDatabase_iff.symm, ?_, exists_runOn_deleteDatabase,
    fun _ => refuses_deleteDatabase_of_file⟩
  rw [refuses_deleteDatabase_iff, IsForeign]
  cases hexists : session.databaseExists name with
  | true =>
      have hsome := isSome_entryAt?_of_databaseExists hexists
      simp [Option.isSome_iff_ne_none.1 hsome]
  | false => simp

def withNotes : Session :=
  start "r".toList (SortedMap.ofList [([], .directory), ([['d']], .directory),
    ([['d'], "notes.txt".toList], .file (.text ['x']))])

/-- Nothing there is a database, and nothing of it is left once the database is deleted that is
not there. -/
theorem withNotes_deleted :
    withNotes.databaseExists ['d'] = false ∧
      ¬ withNotes.Refuses (deleteDatabase ['d']) .databaseNotFound ∧
      ((deleteDatabase ['d']).runOn withNotes).2.store.entries = [([], .directory)] := by
  have hexists : withNotes.databaseExists ['d'] = false ∧
      ((deleteDatabase ['d']).runOn withNotes).1.isOk = true ∧
      ((deleteDatabase ['d']).runOn withNotes).2.store.entries = [([], .directory)] := by
    decide +kernel
  refine ⟨hexists.1, ?_, hexists.2.2⟩
  rintro ⟨failure, later, hrun, _⟩
  rw [hrun] at hexists
  exact absurd hexists.2.1 nofun

end Session

end Relbase
