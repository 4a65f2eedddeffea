import Relbase.Proofs.Session.Outcomes
import Relbase.Report

/-!
# Every query is answered

No counter exceeds the number of queries by more than one.  As long as they have few enough
digits to be written, every failure of a query is reported, and every result can be shown.
-/

namespace Relbase

open Relbase.Action

/-! ## Grids -/

/-- A renderer that shows whatever can be presented as a table. -/
def Renderer.ShowsTables (render : Renderer) : Prop :=
  ∀ result : ResultSet, result.IsPresentable → ∃ text, render result = .ok text

theorem ResultSet.showsTables_grid : Renderer.ShowsTables grid := by
  intro result h
  have hheadings : result.headings = result.names := by
    rw [headings]
    split
    · rename_i hnames _
      exact absurd hnames h.ne_nil
    · rfl
  have hlengths : (result.rows.any (·.length ≠ result.names.length)) = false := by
    rw [List.any_eq_false]
    exact fun row hrow => by simp [h.rectangular row hrow]
  have hcells : (result.rows.contains []) = false := by
    rw [List.contains_eq_mem, decide_eq_false_iff_not]
    exact fun hmem => h.ne_nil (List.length_eq_zero_iff.1 (h.rectangular [] hmem).symm)
  refine ⟨Text.join ['\n'] (gridLines result.names result.rows), ?_⟩
  rw [grid, hheadings]
  simp only [h.distinct, decide_true, Bool.not_true, Bool.false_eq_true, if_false, hlengths, hcells]

namespace Session

variable {path name : Text} {session later : Session} {length : Nat}

/-! ## How far counters get -/

/-- The counters that a run of some length can reach. -/
def UpTo (length : Nat) : Text → Text → Int → Prop :=
  fun _ _ counter => 1 ≤ counter ∧ counter ≤ length + 1

theorem UpTo.mono {key : Text} {counter : Int} (h : UpTo length name key counter) :
    UpTo (length + 1) name key counter :=
  ⟨h.1, by have := h.2; push_cast; omega⟩

theorem fits_upTo (h : length + 1 < Text.digitBound) : Fits (UpTo length) := by
  intro name key counter hcounter
  obtain ⟨hlow, hhigh⟩ := hcounter
  rw [← Bool.not_eq_true, Text.isOversized_iff]
  omega

theorem moves_upTo (name key : Text) : Moves (UpTo length) (UpTo (length + 1)) name key where
  others _ _ _ _ h := h.mono
  moved counter h := ⟨by have := h.1; omega, by have := h.2; push_cast; omega⟩
  lost _ _ _ _ h := h.mono

theorem starts_upTo (path name key : Text) :
    Starts path (UpTo length) (UpTo (length + 1)) name key where
  others _ _ _ _ h := h.mono
  first := ⟨Int.le_refl 1, by push_cast; omega⟩
  unwritten _ _ h := h.mono

theorem Changes.counts_upTo {command : Command} {action : Action Workspace Unit}
    {outcome : Except Failure Unit} (hchanges : Changes path session action outcome later)
    (h : session.IsSound path) (hcounts : session.Counts (UpTo length))
    (hcounting : Counting path command action) : later.Counts (UpTo (length + 1)) := by
  have hmono {other : Session} (hother : other.Counts (UpTo length)) :
      other.Counts (UpTo (length + 1)) := hother.mono fun _ _ _ hcounter => hcounter.mono
  cases hcounting with
  | inserts =>
      obtain ⟨hkept, hmoved⟩ := hchanges.counts_insert (R := UpTo (length + 1)) h hcounts
      cases heffect : tookEffect outcome with
      | false => exact hmono (hkept heffect)
      | true => exact hmoved heffect fun name _ _ => moves_upTo name _
  | creates hdisplay hnames =>
      obtain ⟨hkept, hstarted⟩ :=
        hchanges.counts_createTable (R := UpTo (length + 1)) hdisplay hnames h hcounts
      cases heffect : tookEffect outcome with
      | false => exact hmono (hkept heffect)
      | true => exact hstarted heffect fun name _ _ => starts_upTo path name _
  | keeps _ _ hkeeps => exact hmono (hchanges.counts_of_keeps h hcounts hkeeps)

theorem Counting.isReported {command : Command} {action : Action Workspace Unit}
    (hcounting : Counting path command action) (h : session.IsSound path)
    {Q : Text → Text → Int → Prop} (hcounts : session.Counts Q) (hfits : Fits Q)
    {database : Database} (hcurrent : session.current = some (name, database)) {failure : Failure}
    {workspace : Workspace}
    (hrun : action.runOn ⟨database, session.store⟩ = (.error failure, workspace)) :
    failure.IsReported := by
  have hworkspace := h.current name database hcurrent
  cases hcounting with
  | inserts =>
      rcases (hworkspace.ensures_insert _ _).of_error hrun with
        ⟨hearly, _⟩ | ⟨rfl, table, htable, hsize, _⟩
      · exact hearly.reported
      · have hcounter := hcounts.memory name database hcurrent _ _
          (hworkspace.counter?_of_tableOf htable)
        rw [hfits _ _ _ hcounter] at hsize
        cases hsize
  | creates hdisplay hnames =>
      rcases (hworkspace.ensures_createTable_counter hdisplay hnames).of_error hrun with
        ⟨hearly, _⟩ | ⟨hreported, _⟩
      · exact hearly.reported
      · exact hreported
  | keeps _ _ hkeeps => exact ((hkeeps name _ hworkspace).of_error hrun).1

/-- How an execution ends: with counters that have moved by one at most, with a result that
can be shown, or with a report if the counters fit. -/
theorem ensures_execute_answered (h : session.IsSound path) (hpath : '\x00' ∉ path)
    (hcounts : session.Counts (UpTo length)) (hfits : Fits (UpTo (length + 1))) {command : Command}
    (hprintable : Spelling.Printable command) :
    (execute command).Ensures session
      (fun result later => (∀ answer, result = some answer → answer.IsPresentable) ∧
        later.Counts (UpTo (length + 1)))
      fun failure later => failure.IsReported ∧ later.Counts (UpTo (length + 1)) := by
  have hmono {other : Session} (hother : other.Counts (UpTo length)) :
      other.Counts (UpTo (length + 1)) := hother.mono fun _ _ _ hcounter => hcounter.mono
  have hfitsNow : Fits (UpTo length) := fun name key counter hcounter =>
    hfits name key counter hcounter.mono
  cases haction : command.changing with
  | some action =>
      have hcounting := counting_of_changing path hprintable haction
      obtain ⟨outcome, houtcome, hchanges⟩ := h.changes_execute hprintable haction
      have hlater := hchanges.counts_upTo h hcounts hcounting
      refine ensures_of_runOn (Prod.ext houtcome rfl) (fun result hresult => ?_) fun failure hfailure => ?_
      · cases outcome with
        | error _ => cases hresult
        | ok _ =>
            cases hresult
            exact ⟨fun _ => nofun, hlater⟩
      · cases outcome with
        | ok _ => cases hfailure
        | error _ =>
            cases hfailure
            exact ⟨hchanges.isReported hlater hfits rfl fun name database workspace hcurrent hrun =>
              hcounting.isReported h hcounts hfitsNow hcurrent hrun, hlater⟩
  | none =>
      exact (ensures_execute_unchanging h hcounts hprintable haction).mono
        (fun _ _ hdone => ⟨hdone.1, hmono hdone.2⟩)
        fun _ _ hfailed => ⟨hfailed.1 hpath hfitsNow, hmono hfailed.2⟩

theorem ensures_executeText_answered (h : session.IsSound path) (hpath : '\x00' ∉ path)
    (hcounts : session.Counts (UpTo length)) (hfits : Fits (UpTo (length + 1))) (text : Text) :
    (executeText text).Ensures session
      (fun result later => (∀ answer, result = some answer → answer.IsPresentable) ∧
        later.Counts (UpTo (length + 1)))
      fun failure later => failure.IsReported ∧ later.Counts (UpTo (length + 1)) := by
  rw [executeText]
  split
  · rename_i command hcommand
    exact ensures_execute_answered h hpath hcounts hfits (Spelling.printable_of_ofText hcommand)
  · exact ⟨trivial, hcounts.mono fun _ _ _ hcounter => hcounter.mono⟩

/-! ## Runs -/

theorem counts_after (hpath : '\x00' ∉ path) (events : List Event)
    (hlength : events.length + 1 < Text.digitBound) :
    (after path events).Counts (UpTo events.length) := by
  induction events using List.reverseRecOn with
  | nil => exact counts_start _ path
  | append_singleton events event ih =>
      rw [List.length_append, List.length_singleton] at hlength ⊢
      have hcounts := ih (Nat.lt_of_succ_lt hlength)
      rw [after_append]
      cases event with
      | query text =>
          exact ((ensures_executeText_answered (isSound_after path events) hpath hcounts
            (fits_upTo hlength) text).mono (fun _ _ hdone => hdone.2)
              fun _ _ hfailed => hfailed.2).finally
      | reopening =>
          exact hcounts.left.mono fun _ _ _ hcounter => hcounter.mono

/-- What is answered to a query, given how its execution ended. -/
inductive IsResponse (render : Renderer) : Except Failure (Option ResultSet) → Text → Prop
  | done : IsResponse render (.ok none) "[OK]".toList
  | shown {result : ResultSet} {grid : Text} (hgrid : render result = .ok grid) :
      IsResponse render (.ok (some result)) ("[OK]\n".toList ++ grid)
  | refused (error : DbError) :
      IsResponse render (.error (.reported error)) ("[ERROR]: ".toList ++ error.message)

theorem runOn_respondBy (render : Renderer) (session : Session) (text : Text) :
    (respondBy render text).runOn session =
      match (executeText text).runOn session with
      | (.ok result, later) =>
          match Report.ofRendering render result with
          | .ok response => (.ok response, later)
          | .error fault => (.error (.unforeseen fault), later)
      | (.error (.reported error), later) => (.ok (Report.ofError error), later)
      | (.error (.unforeseen fault), later) => (.error (.unforeseen fault), later) := rfl

/-- Every query of a run is answered: nothing unforeseen happens in its execution, and there
is a response that tells how it ended. -/
theorem exists_response {render : Renderer} (hrender : render.ShowsTables) (hpath : '\x00' ∉ path)
    (events : List Event) (hlength : events.length + 2 < Text.digitBound) (text : Text) :
    (∀ fault, ((executeText text).runOn (after path events)).1 ≠ .error (.unforeseen fault)) ∧
      ∃ response, (respondBy render text).runOn (after path events) =
          (.ok response, after path (events ++ [.query text])) ∧
        IsResponse render ((executeText text).runOn (after path events)).1 response := by
  have hexecuted := ensures_executeText_answered (isSound_after path events) hpath
    (counts_after hpath events (Nat.lt_of_succ_lt hlength)) (fits_upTo hlength) text
  have hlater : after path (events ++ [.query text]) =
      ((executeText text).runOn (after path events)).2 := after_append path events _
  rw [runOn_respondBy, hlater]
  rcases hrun : (executeText text).runOn (after path events) with ⟨failure | result, later⟩
  · have hreported := (hexecuted.of_error hrun).1
    cases failure with
    | reported error => exact ⟨by simp, _, rfl, .refused error⟩
    | unforeseen fault => exact hreported.elim
  · refine ⟨by simp, ?_⟩
    cases result with
    | none => exact ⟨_, rfl, .done⟩
    | some answer =>
        obtain ⟨shown, hshown⟩ := hrender answer ((hexecuted.of_ok hrun).1 answer rfl)
        refine ⟨"[OK]\n".toList ++ shown, ?_, .shown hshown⟩
        simp only [Report.ofRendering, hshown]
        rfl

/-- A run in which a row file was shifted by a tab. -/
def shiftedRecord : List Event :=
  firstTable ++ [.query "INSERT INTO t VALUES ('x\ty');".toList, .reopening,
    .query "USE d;".toList]

theorem exists_response_shiftedRecord :
    ∃ response, (respondBy ResultSet.grid "SELECT a FROM t;".toList).runOn
        (after "r".toList shiftedRecord) =
      (.ok response, after "r".toList (shiftedRecord ++ [.query "SELECT a FROM t;".toList])) ∧
      IsResponse ResultSet.grid ((executeText "SELECT a FROM t;".toList).runOn
        (after "r".toList shiftedRecord)).1 response :=
  (exists_response ResultSet.showsTables_grid (by decide) shiftedRecord
    (Nat.lt_of_lt_of_le (by decide) Text.ten_le_digitBound) _).2

/-- Below a root whose path no file can have, a new database is not answered. -/
theorem createDatabase_unforeseen (hpath : '\x00' ∈ path) (hname : IsIdentifier name)
    (store : Store) :
    ((createDatabase name).runOn (start path store)).1 = .error (.unforeseen .malformedPath) := by
  have hmalformed : ((start path store).directoryOf name).isMalformed = true := by
    have hroot : (start path store).root = .root path := rfl
    rw [directoryOf, hroot, Place.isMalformed_child _ hname.isStep, Place.isMalformed_root]
    simp [List.contains_eq_mem, hpath]
  have hexists : (start path store).databaseExists name = false := by
    simp [databaseExists, Store.isDirectory, Store.entryAt?, hmalformed]
  have hchange : (onStore (Files.change (.createDatabase name) ((start path store).directoryOf name)
      (·.makeDirectory ((start path store).directoryOf name)))).runOn (start path store) =
        (.error (.unforeseen .malformedPath), start path store) := by
    rw [onStore, runOn_within, Files.change, runOn_bind, Files.runOn_attempt, hmalformed]
    rfl
  rw [createDatabase, runOn_get_bind, hexists]
  simp only [Bool.false_eq_true, if_false]
  rw [runOn_bind, hchange]

end Session

end Relbase
