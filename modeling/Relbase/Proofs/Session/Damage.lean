import Relbase.Proofs.ErrorClass
import Relbase.Proofs.Loading
import Relbase.Proofs.Session.Consistency
import Relbase.Proofs.Table.Damage

/-!
# Damaged files

Whatever a metadata file holds, opening its database succeeds or reports why not, but for a
few contents; and so does loading a table, whatever its row file holds.  These contents are
all there is.
-/

namespace Relbase

open Relbase.Action

/-! ## Reading files -/

namespace Files

variable {store : Store} {place : Place} {task : StorageTask}

theorem outcome_readText :
    ((readText task place).runOn store).1 =
      if place.isMalformed then .error (.unforeseen .malformedPath)
      else
        match store.read place with
        | .error cause => .error (.reported (.storage (.file task ⟨cause, place.path⟩)))
        | .ok (.text text) => .ok text
        | .ok (.undecodable _) => .error (.unforeseen .undecodable) := by
  rw [readText, runOn_bind, runOn_attempt]
  cases place.isMalformed with
  | true => rfl
  | false =>
      cases store.read place with
      | error cause => rfl
      | ok content => cases content <;> rfl

theorem outcome_readText_eq_ok {text : Text} :
    ((readText task place).runOn store).1 = .ok text ↔
      place.isMalformed = false ∧ store.read place = .ok (.text text) := by
  rw [outcome_readText]
  cases place.isMalformed with
  | true => simp
  | false =>
      rcases store.read place with _ | _ | _ <;> simp

theorem outcome_readText_eq_unforeseen {fault : Fault} :
    ((readText task place).runOn store).1 = .error (.unforeseen fault) ↔
      place.isMalformed = true ∧ fault = .malformedPath ∨
        place.isMalformed = false ∧ fault = .undecodable ∧
          ∃ bytes, store.read place = .ok (.undecodable bytes) := by
  rw [outcome_readText]
  cases place.isMalformed with
  | true => simp [eq_comm]
  | false =>
      rcases store.read place with _ | _ | _ <;> simp [eq_comm]

theorem outcome_readRows :
    ((readRows place).runOn store).1 =
      ((readText (.readRows place.path) place).runOn store).1.map RowFile.parse := by
  rw [readRows, runOn_bind]
  rcases (readText (.readRows place.path) place).runOn store with ⟨_ | text, later⟩ <;> rfl

def decoded (place : Place) (text : Text) : Except Failure (List (Text × Json)) :=
  match Json.parse text.unifyNewlines with
  | .error problem => .error (unreadable place problem)
  | .ok (.object members) => .ok members
  | .ok _ => .error (.reported (.storage (.notMetadata place.path)))

theorem decoded_eq_ok {text : Text} {members : List (Text × Json)} :
    decoded place text = .ok members ↔ Json.parse text.unifyNewlines = .ok (.object members) := by
  rw [decoded]
  cases Json.parse text.unifyNewlines with
  | error problem => simp
  | ok value => cases value <;> simp

theorem unreadable_eq_unforeseen {problem : Json.Problem} {fault : Fault}
    (hscalar : problem.cause ≠ .loneSurrogate) :
    unreadable place problem = .unforeseen fault ↔
      fault = .oversizedInteger ∧ problem.cause = .oversizedInteger := by
  rw [unreadable]
  cases hcause : problem.cause <;> simp_all [@eq_comm _ Fault.oversizedInteger]

theorem decoded_eq_unforeseen {text : Text} {fault : Fault}
    (hscalar : ∀ problem, Json.parse text.unifyNewlines = .error problem →
      problem.cause ≠ .loneSurrogate) :
    decoded place text = .error (.unforeseen fault) ↔ fault = .oversizedInteger ∧
      ∃ problem, Json.parse text.unifyNewlines = .error problem ∧
        problem.cause = .oversizedInteger := by
  rw [decoded]
  cases hparse : Json.parse text.unifyNewlines with
  | error problem => simp [unreadable_eq_unforeseen (hscalar problem hparse)]
  | ok value => cases value <;> simp

theorem outcome_readMetadata :
    ((readMetadata place).runOn store).1 =
      ((readText (.readMetadata place.path) place).runOn store).1 >>= decoded place := by
  rw [readMetadata, runOn_bind]
  rcases (readText (.readMetadata place.path) place).runOn store with ⟨_ | text, later⟩
  · rfl
  · simp only [bind, Except.bind, decoded]
    cases Json.parse text.unifyNewlines with
    | error problem => rfl
    | ok value => cases value <;> rfl

theorem runOn_readMetadata_snd : ((readMetadata place).runOn store).2 = store := by
  have hread : (readMetadata place).Ensures store (fun _ later => later = store)
      fun _ later => later = store := by
    rw [readMetadata, ensures_bind]
    refine ensures_readText (fun text _ _ => ?_) fun _ => rfl
    split <;> rfl
  exact hread.finally

end Files

/-! ## Opening databases -/

namespace Session

variable {session : Session} {name : Text} {fault : Fault}

theorem schemas_eq_unforeseen {store : Store} {place : Place}
    (hformed : place.isMalformed = false)
    (hscalar : ∀ content, store.read place = .ok content → content.IsScalar) :
    ((Files.readMetadata place).runOn store).1 >>= schemasOf = .error (.unforeseen fault) ↔
      ∃ content, store.read place = .ok content ∧ content.IsFatalMetadata fault := by
  rw [Files.outcome_readMetadata, bind_assoc]
  simp only [bind_eq_error, Files.outcome_readText_eq_unforeseen, Files.outcome_readText_eq_ok,
    Files.decoded_eq_ok, schemasOf_eq_unforeseen, hformed, Bool.false_eq_true, false_and, false_or,
    true_and]
  constructor
  · rintro (⟨rfl, bytes, hread⟩ | ⟨text, hread, hdecoded | ⟨members, hparse, htables⟩⟩)
    · exact ⟨_, hread, .undecodable bytes⟩
    · obtain ⟨rfl, problem, hparse, hcause⟩ :=
        (Files.decoded_eq_unforeseen (hscalar _ hread)).1 hdecoded
      exact ⟨_, hread, .oversizedInteger hparse hcause⟩
    · exact ⟨_, hread, .tables hparse htables⟩
  · rintro ⟨content, hread, hfatal⟩
    cases hfatal with
    | undecodable bytes => exact .inl ⟨rfl, bytes, hread⟩
    | oversizedInteger hparse hcause =>
        exact .inr ⟨_, hread, .inl ((Files.decoded_eq_unforeseen (hscalar _ hread)).2
          ⟨rfl, _, hparse, hcause⟩)⟩
    | tables hparse htables => exact .inr ⟨_, hread, .inr ⟨_, hparse, htables⟩⟩

theorem root_close (session : Session) : (close.runOn session).2.root = session.root := by
  have hclose : close.Ensures session (fun _ later => later.root = session.root)
      fun _ later => later.root = session.root := by
    refine ensures_close_of_save (fun _ => rfl) fun name database _ => ?_
    exact ensures_of_runOn (Prod.ext rfl rfl) (fun _ _ => rfl) fun _ _ => rfl
  exact hclose.finally

theorem runOn_useDatabase (hexists : session.databaseExists name = true) :
    (useDatabase name).runOn session =
      match close.runOn session with
      | (.error failure, later) => (.error failure, later)
      | (.ok (), closed) =>
          match ((Files.readMetadata (Database.metadataPlace (session.directoryOf name))).runOn
              closed.store).1 >>= schemasOf with
          | .error failure => (.error failure, closed)
          | .ok schemas => (.ok (), { closed with
              current := some (name, .ofSchemas (session.directoryOf name) schemas) }) := by
  have hroot := root_close session
  rw [useDatabase, runOn_get_bind, if_neg (by simp [hexists]), runOn_bind]
  rcases hclose : close.runOn session with ⟨failure | _, closed⟩
  · rfl
  · have hdirectory : closed.directoryOf name = session.directoryOf name := by
      rw [hclose] at hroot
      rw [directoryOf, directoryOf, ← hroot]
    simp only
    rw [runOn_get_bind, hdirectory, runOn_bind, onStore, runOn_within,
      Files.runOn_readMetadata_snd]
    rcases ((Files.readMetadata (Database.metadataPlace (session.directoryOf name))).runOn
      closed.store).1 with failure | members
    · rfl
    · have hbind : Except.ok members >>= schemasOf = schemasOf members := rfl
      rw [hbind]
      simp only
      rw [runOn_bind, runOn_ofOutcome]
      cases schemasOf members <;> rfl

theorem runOn_useDatabase_of_missing (hmissing : session.databaseExists name = false) :
    (useDatabase name).runOn session = (.error (.reported (.databaseNotFound name)), session) := by
  rw [useDatabase, runOn_get_bind, if_pos (by simp [hmissing])]
  rfl

theorem isMalformed_metadataPlace (hexists : session.databaseExists name = true) :
    (Database.metadataPlace (session.directoryOf name)).isMalformed = false := by
  rw [databaseExists, Bool.and_eq_true] at hexists
  by_contra hformed
  simp [Store.isFile, Store.entryAt?, hformed] at hexists

/-- The metadata that are read when a database is opened have no lone surrogate in a name. -/
def ReadsScalars (session : Session) (name : Text) : Prop :=
  ∀ closed content, close.runOn session = (.ok (), closed) →
    closed.store.read (Database.metadataPlace (session.directoryOf name)) = .ok content →
      content.IsScalar

theorem useDatabase_eq_unforeseen (hscalar : session.ReadsScalars name) :
    ((useDatabase name).runOn session).1 = .error (.unforeseen fault) ↔
      session.databaseExists name = true ∧
        ((close.runOn session).1 = .error (.unforeseen fault) ∨
          ∃ closed, close.runOn session = (.ok (), closed) ∧ ∃ content,
            closed.store.read (Database.metadataPlace (session.directoryOf name)) = .ok content ∧
              content.IsFatalMetadata fault) := by
  cases hexists : session.databaseExists name with
  | false =>
      simp [runOn_useDatabase_of_missing hexists]
  | true =>
      rw [runOn_useDatabase hexists]
      rcases hclose : close.runOn session with ⟨failure | _, closed⟩
      · simp
      · have hschemas := @schemas_eq_unforeseen fault closed.store _
          (isMalformed_metadataPlace hexists) fun content => hscalar closed content hclose
        simp only [Prod.mk.injEq, true_and, exists_eq_left', reduceCtorEq, false_or]
        rw [← hschemas]
        cases ((Files.readMetadata (Database.metadataPlace (session.directoryOf name))).runOn
          closed.store).1 >>= schemasOf <;> simp

end Session

/-! ## Loading tables -/

namespace Workspace

variable {fault : Fault}

/-- Loading the table of a place fails unforeseen exactly if no file can be there, or if the
file that is there is fatal. -/
inductive FailsUnforeseen (store : Store) (place : Place) (schema : Schema) : Fault → Prop
  | malformed (hformed : place.isMalformed = true) :
      FailsUnforeseen store place schema .malformedPath
  | fatal {content : Content} {fault : Fault} (hformed : place.isMalformed = false)
      (hread : store.read place = .ok content) (hfatal : content.IsFatalRowFile schema fault) :
      FailsUnforeseen store place schema fault

theorem tableAt_eq_bind (store : Store) (place : Place) (schema : Schema) :
    tableAt store place schema =
      ((Files.readText (.readRows place.path) place).runOn store).1 >>= fun text =>
        let loaded := (Table.load place.path (RowFile.parse text)).runOn (Table.ofSchema schema)
        loaded.1.map fun _ => loaded.2 := by
  rw [tableAt, Files.outcome_readRows]
  cases ((Files.readText (.readRows place.path) place).runOn store).1 with
  | error failure => rfl
  | ok text =>
      simp only [Except.map, bind, Except.bind]
      rcases (Table.load place.path (RowFile.parse text)).runOn (Table.ofSchema schema) with
        ⟨_ | _, table⟩ <;> rfl

theorem map_eq_error {ε α β : Type} {f : α → β} {outcome : Except ε α} {failure : ε} :
    outcome.map f = .error failure ↔ outcome = .error failure := by
  cases outcome <;> simp [Except.map]

theorem tableAt_eq_unforeseen {store : Store} {place : Place} {schema : Schema} :
    tableAt store place schema = .error (.unforeseen fault) ↔
      FailsUnforeseen store place schema fault := by
  simp only [tableAt_eq_bind, bind_eq_error, map_eq_error, Files.outcome_readText_eq_unforeseen,
    Files.outcome_readText_eq_ok, Table.outcome_load_eq_unforeseen, RowFile.rows_ne_nil]
  constructor
  · rintro ((⟨hformed, rfl⟩ | ⟨hformed, rfl, bytes, hread⟩) |
      ⟨text, ⟨hformed, hread⟩, rfl, hids, line, hline, hne⟩)
    · exact .malformed hformed
    · exact .fatal hformed hread (.undecodable bytes)
    · exact .fatal hformed hread (.withoutIds hids hline hne)
  · intro h
    cases h with
    | malformed hformed => exact .inl (.inl ⟨hformed, rfl⟩)
    | fatal hformed hread hfatal =>
        cases hfatal with
        | undecodable bytes => exact .inl (.inr ⟨hformed, rfl, bytes, hread⟩)
        | withoutIds hids hline hne =>
            exact .inr ⟨_, ⟨hformed, hread⟩, rfl, hids, _, hline, hne⟩

theorem records_ofSchemas {directory : Place} {schemas : List (Text × Schema)} {key : Text}
    {registration : Registration}
    (h : (Database.ofSchemas directory schemas).tables.get? key = some registration) :
    registration.records = none := by
  rw [OrderedMap.get?_eq_some_iff, Database.ofSchemas, OrderedMap.entries_ofList] at h
  obtain ⟨entry, _, heq⟩ := List.mem_map.1 (Assoc.mem_of_mem_ofList h)
  cases heq
  rfl

theorem outcome_loadTable_of_records {workspace : Workspace} {spelled : Text}
    {registration : Registration}
    (hregistered : workspace.database.tables.get? spelled.lower = some registration)
    (hrecords : registration.records = none) :
    ((loadTable spelled).runOn workspace).1 =
      tableAt workspace.store (workspace.database.rowFilePlace spelled.lower)
        registration.schema := by
  rw [outcome_loadTable, tableOf, hregistered]
  simp only [Registration.table?, hrecords, Option.map_none]

end Workspace

/-! ## All that is not foreseen -/

namespace Session

variable {session : Session} {name : Text}

theorem current_useDatabase {opened : Session}
    (hrun : (useDatabase name).runOn session = (.ok (), opened)) :
    ∃ schemas, opened.current = some (name, .ofSchemas (session.directoryOf name) schemas) := by
  have hexists : session.databaseExists name = true := by
    by_contra hmissing
    rw [runOn_useDatabase_of_missing (by simpa using hmissing)] at hrun
    cases hrun
  rw [runOn_useDatabase hexists] at hrun
  rcases hclose : close.runOn session with ⟨failure | _, closed⟩ <;> rw [hclose] at hrun
  · cases hrun
  · simp only at hrun
    cases hschemas : ((Files.readMetadata (Database.metadataPlace
        (session.directoryOf name))).runOn closed.store).1 >>= schemasOf with
    | error failure =>
        rw [hschemas] at hrun
        cases hrun
    | ok schemas =>
        rw [hschemas] at hrun
        cases hrun
        exact ⟨schemas, rfl⟩

def damaged (file : Text) (content : Content) : Session :=
  start "r".toList
    ((after "r".toList firstTable).store.insert [['d'], file] (.file content))

def isJson : Content → Bool
  | .text text => (Json.parse text.unifyNewlines).isOk
  | .undecodable _ => false

theorem isScalar_of_isJson {content : Content} (h : isJson content = true) : content.IsScalar := by
  cases content with
  | undecodable bytes => trivial
  | text text =>
      intro problem hparse
      rw [isJson, hparse] at h
      cases h

theorem readsScalars_damaged {file : Text} {content : Content}
    (h : ((damaged file content).store.read (Database.metadataPlace
      ((damaged file content).directoryOf ['d']))).toOption.any isJson = true) :
    (damaged file content).ReadsScalars ['d'] := by
  intro closed found hclose hread
  obtain ⟨metadata, hmetadata, hjson⟩ := exists_ok_of_any h
  cases hclose
  cases hmetadata.symm.trans hread
  exact isScalar_of_isJson hjson

end Session

end Relbase
