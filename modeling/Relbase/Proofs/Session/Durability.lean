import Relbase.Proofs.Session.Changes
import Relbase.Proofs.Session.Consistency
import Relbase.Proofs.Table.Deleting

/-!
# What a new session finds

After a change that succeeded, a new session on the same root that opens the database has
the same tables.  It answers for a table as the old session does if no cell of the answer
has a tab or a line break in it, and only then.
-/

namespace Relbase

open Relbase.Action

namespace Workspace

variable {path name : Text} {workspace : Workspace}

/-! ## Opening a database -/

def unloaded (workspace : Workspace) : Workspace :=
  ⟨.ofSchemas workspace.database.directory workspace.database.schemas, workspace.store⟩

def RowsSaved (name : Text) (workspace : Workspace) : Prop :=
  ∀ key table, (key, table) ∈ workspace.database.loadedTables →
    workspace.store.get? [name, Database.rowFileName key] =
      some (.file (.text (rowText table)))

theorem tableOf_unloaded (workspace : Workspace) (spelled : Text) :
    workspace.unloaded.tableOf spelled =
      match workspace.database.tables.get? spelled.lower with
      | none => .error (.reported (.tableNotFound spelled))
      | some found =>
          tableAt workspace.store (workspace.database.rowFilePlace spelled.lower) found.schema := by
  rw [tableOf, unloaded, Database.get?_ofSchemas]
  cases workspace.database.tables.get? spelled.lower <;> rfl

theorem isPlain_of_tableOf_unloaded (h : workspace.IsSound path name) {spelled : Text} {table : Table}
    (htable : workspace.unloaded.tableOf spelled = .ok table) :
    table.IsSound spelled.lower ∧ table.IsPlain := by
  rw [tableOf_unloaded] at htable
  split at htable
  · cases htable
  · rename_i found hfound
    exact isSound_of_tableAt (h.tables _ found hfound).schema htable

/-- Tables of plain cells are found again once nothing is loaded. -/
theorem tableOf_unloaded_of_isPlain (h : workspace.IsSound path name)
    (hrows : RowsSaved name workspace) {spelled : Text}
    (hplain : ∀ table, workspace.tableOf spelled = .ok table → table.IsPlain) :
    workspace.unloaded.tableOf spelled = workspace.tableOf spelled := by
  rw [tableOf_unloaded]
  rw [tableOf] at hplain ⊢
  cases hfound : workspace.database.tables.get? spelled.lower with
  | none => rfl
  | some found =>
      cases htable : found.table? with
      | none => simp only [htable]
      | some table =>
          simp only [hfound, htable, Except.ok.injEq, forall_eq'] at hplain ⊢
          have hloaded : found = .ofTable table := Registration.eq_ofTable htable
          have hsound := (h.tables _ found hfound).table table htable
          rw [h.rowFilePlace_eq, hloaded]
          exact tableAt_rowText h.store h.identifier hsound hplain
            (hrows _ table (mem_loadedTables.2 (hloaded ▸ hfound)))

end Workspace

namespace Session

variable {path name : Text} {session : Session}

theorem runOn_useDatabase_saved (h : session.IsSound path) (hcurrent : session.current = none)
    {schemas : List (Text × Schema)} (hname : IsIdentifier name) (hsound : SoundSchemas schemas)
    (hcounted : AllCounted schemas)
    (htext : session.store.get? [name, Database.metadataName] =
      some (.file (.text (metadataText schemas)))) :
    (useDatabase name).runOn session = (.ok (), session.opened session.store name schemas) := by
  have hexists : session.databaseExists name = true :=
    (databaseExists_iff h hname).2 (by rw [htext]; rfl)
  have hclose : close.runOn session = (.ok (), session) := by
    rw [close, runOn_get_bind, hcurrent]
    rfl
  rw [useDatabase, runOn_get_bind, if_neg (by simp [hexists]), runOn_bind_of_ok hclose,
    runOn_get_bind]
  simp only [h.metadataPlace_directoryOf]
  have hmembers : (onStore (Files.readMetadata (fileIn path name Database.metadataName))).runOn
      session = (.ok (describing schemas), session) := by
    rw [onStore, runOn_within, runOn_readMetadata h.store hname hsound hcounted htext]
  have hschemas : (ofOutcome (schemasOf (describing schemas)) : Action Session _).runOn
      session = (.ok schemas, session) := by
    rw [runOn_ofOutcome, hsound.schemasOf_describing]
  rw [runOn_bind_of_ok hmembers, runOn_bind_of_ok hschemas]
  rfl

theorem runOn_use {store : Store} {schemas : List (Text × Schema)} (horderly : store.IsOrderly path)
    (hname : IsIdentifier name) (hsound : SoundSchemas schemas) (hcounted : AllCounted schemas)
    (htext : store.get? [name, Database.metadataName] =
      some (.file (.text (metadataText schemas)))) :
    (execute (.use name)).runOn (start path store) =
      (.ok none, (start path store).opened store name schemas) := by
  have hstart : (start path store).IsSound path := (isSound_start path).left horderly
  rw [execute, runOn_bind_of_ok (runOn_useDatabase_saved hstart rfl hname hsound hcounted htext)]
  rfl

/-! ## Answers -/

def tableOf (session : Session) (spelled : Text) : Except Failure Table :=
  match session.current with
  | none => .error (.reported .noDatabaseInUse)
  | some (_, database) => Workspace.tableOf ⟨database, session.store⟩ spelled

theorem exists_current_of_tableOf {spelled : Text} {table : Table}
    (htable : session.tableOf spelled = .ok table) :
    ∃ name database, session.current = some (name, database) ∧
      Workspace.tableOf ⟨database, session.store⟩ spelled = .ok table := by
  rw [tableOf] at htable
  split at htable
  · cases htable
  · rename_i name database hcurrent
    exact ⟨name, database, hcurrent, htable⟩

theorem outcome_select (session : Session) (columns : Columns) (spelled : Text)
    (condition : Option Condition) :
    ((execute (.select columns spelled condition)).runOn session).1 =
      session.tableOf spelled >>= fun table => (table.answer columns condition).map some := by
  have hload : ((onWorkspace (Workspace.loadTable spelled)).runOn session).1 =
      session.tableOf spelled := by
    rw [tableOf]
    cases hcurrent : session.current with
    | none => rw [runOn_onWorkspace_of_none hcurrent]
    | some current => rw [runOn_onWorkspace hcurrent, Workspace.outcome_loadTable]
  rw [execute, runOn_bind, ← hload]
  rcases (onWorkspace (Workspace.loadTable spelled)).runOn session with ⟨_ | found, last⟩
  · rfl
  · simp only [runOn_bind, runOn_ofOutcome]
    cases hanswer : found.answer columns condition <;>
      simp [bind, Except.bind, hanswer, Except.map, runOn_pure]

theorem outcome_select_of_answer {columns : Columns} {spelled : Text} {condition : Option Condition}
    {table : Table} {result : ResultSet} (htable : session.tableOf spelled = .ok table)
    (hanswer : table.answer columns condition = .ok result) :
    ((execute (.select columns spelled condition)).runOn session).1 = .ok (some result) := by
  rw [outcome_select, htable]
  change (table.answer columns condition).map some = _
  rw [hanswer]
  rfl

def answer (session : Session) (spelled : Text) : Except Failure (Option ResultSet) :=
  ((execute (.select .all spelled none)).runOn session).1

theorem answer_of_current {database : Database} (hcurrent : session.current = some (name, database))
    (spelled : Text) :
    session.answer spelled =
      (Workspace.tableOf ⟨database, session.store⟩ spelled).map fun table => some table.whole := by
  rw [answer, outcome_select, tableOf, hcurrent]
  rfl

def AnswersPlainly (session : Session) (spelled : Text) : Prop :=
  ∀ answer, session.answer spelled = .ok (some answer) →
    ∀ row ∈ answer.rows, ∀ cell ∈ row, IsPlainCell cell

/-- A database that is opened from what was saved answers as the saved one, up to cells
that are not plain. -/
theorem answer_opened_iff {last : Workspace} (hlast : last.IsSound path name)
    (hrows : Workspace.RowsSaved name last) (spelled : Text) :
    ((start path last.store).opened last.store name last.database.schemas).answer spelled =
        (session.entered name last).answer spelled ↔
      (session.entered name last).AnswersPlainly spelled := by
  have hfresh : ((start path last.store).opened last.store name last.database.schemas).answer
      spelled = (last.unloaded.tableOf spelled).map fun table => some table.whole := by
    rw [Workspace.unloaded, hlast.directory]
    exact answer_of_current rfl spelled
  have hold : (session.entered name last).answer spelled =
      (last.tableOf spelled).map fun table => some table.whole := answer_of_current rfl spelled
  rw [AnswersPlainly, hfresh, hold]
  constructor
  · intro heq answer hanswer
    rw [← heq] at hanswer
    cases htable : last.unloaded.tableOf spelled with
    | error failure =>
        rw [htable] at hanswer
        cases hanswer
    | ok table =>
        rw [htable] at hanswer
        cases hanswer
        obtain ⟨hsound, hplain⟩ := Workspace.isPlain_of_tableOf_unloaded hlast htable
        exact (Table.isPlain_iff hsound).1 hplain
  · intro hplain
    refine congrArg _ (Workspace.tableOf_unloaded_of_isPlain hlast hrows fun table htable => ?_)
    rw [htable] at hplain
    exact (Table.isPlain_iff (Workspace.isSound_of_tableOf hlast htable)).2 (hplain _ rfl)

/-! ## Changes -/

/-- A new session on the same root has opened the database that is in use in the old one,
and has the same tables. -/
def IsReopened (path : Text) (old fresh : Session) : Prop :=
  ∃ name database reopened, old.current = some (name, database) ∧
    (execute (.use name)).runOn (start path old.store) = (.ok none, fresh) ∧
      fresh.current = some (name, reopened) ∧ reopened.schemas = database.schemas

theorem Commits.exists_isReopened {later : Session} (hcommits : Commits path session later)
    (h : session.IsSound path) :
    ∃ fresh, IsReopened path later fresh ∧
      ∀ spelled, fresh.answer spelled = later.answer spelled ↔ later.AnswersPlainly spelled := by
  cases hcommits with
  | intro hcurrent hsteps hsaves =>
      rename_i name database workspace last
      have hlast := hsaves.isSound (hsteps.isSound (h.current name database hcurrent))
      have hcounted : AllCounted last.database.schemas := by
        rw [hsaves.database_eq]
        exact hsaves.counted
      have hmetadata : last.store.get? [name, Database.metadataName] =
          some (.file (.text (metadataText last.database.schemas))) := by
        rw [hsaves.database_eq]
        exact hsaves.metadata
      have hrows : Workspace.RowsSaved name last := by
        rw [Workspace.RowsSaved, hsaves.database_eq]
        exact fun key table hloaded => hsaves.rowFile hloaded
      exact ⟨(start path last.store).opened last.store name last.database.schemas,
        ⟨name, last.database, _, rfl,
          runOn_use hlast.store hlast.identifier hlast.soundSchemas hcounted hmetadata, rfl,
          Database.schemas_ofSchemas _ hlast.soundSchemas.distinct⟩,
        answer_opened_iff hlast hrows⟩

/-- After a change that succeeds, a new session has the same tables, and it answers for a
table as the old session does exactly if all cells of the old answer are plain. -/
theorem exists_isReopened_of_isChange (path : Text) (events : List Event) {text : Text}
    {command : Command} {result : Option ResultSet} (hcommand : Command.ofText text = .ok command)
    (hchange : command.IsChange)
    (hresult : ((executeText text).runOn (after path events)).1 = .ok result) :
    ∃ fresh, IsReopened path (after path (events ++ [.query text])) fresh ∧
      ∀ spelled, fresh.answer spelled = (after path (events ++ [.query text])).answer spelled ↔
        (after path (events ++ [.query text])).AnswersPlainly spelled := by
  have hsound := isSound_after path events
  have hexecute := ensures_execute_change hsound (Spelling.printable_of_ofText hcommand) hchange
  simp only [executeText, hcommand] at hresult
  have hcommits := hexecute.of_ok (Prod.ext hresult rfl)
  rw [after_append, react, executeText, hcommand]
  exact hcommits.exists_isReopened hsound

theorem exists_isReopened_firstRecord :
    ∃ fresh, IsReopened "r".toList
        (after "r".toList (firstTable ++ [.query "INSERT INTO t VALUES ('x');".toList])) fresh ∧
      fresh.answer ['t'] =
        (after "r".toList (firstTable ++ [.query "INSERT INTO t VALUES ('x');".toList])).answer ['t'] := by
  have hok : ((executeText "INSERT INTO t VALUES ('x');".toList).runOn
      (after "r".toList firstTable)).1.isOk = true := by decide +kernel
  have hanswer : ((after "r".toList (firstTable ++
      [.query "INSERT INTO t VALUES ('x');".toList])).answer ['t']).toOption =
        some (some ⟨[idName, ['a']], [[['1'], ['x']]]⟩) := by decide +kernel
  obtain ⟨result, hresult⟩ := exists_of_isOk hok
  obtain ⟨fresh, hreopened, hiff⟩ := exists_isReopened_of_isChange "r".toList firstTable
    (show Command.ofText "INSERT INTO t VALUES ('x');".toList = .ok (.insert ['t'] [['x']]) by
      decide +kernel) trivial hresult
  refine ⟨fresh, hreopened, (hiff ['t']).2 fun answer hfound => ?_⟩
  rw [hfound] at hanswer
  cases hanswer
  decide

/-- A cell with a tab loses what follows the tab. -/
theorem tabbedRecord_not_found :
    ((executeText "INSERT INTO t VALUES ('x\ty');".toList).runOn
        (after "r".toList firstTable)).1.isOk = true ∧
      ((after "r".toList (firstTable ++
        [.query "INSERT INTO t VALUES ('x\ty');".toList])).answer ['t']).toOption =
          some (some ⟨[idName, ['a']], [[['1'], ['x', '\t', 'y']]]⟩) ∧
      (((execute (.use ['d'])).runOn (start "r".toList (after "r".toList (firstTable ++
        [.query "INSERT INTO t VALUES ('x\ty');".toList])).store)).2.answer ['t']).toOption =
          some (some ⟨[idName, ['a']], [[['1'], ['x']]]⟩) := by
  decide +kernel

end Session

end Relbase
