import Relbase.Proofs.Likeness.Sessions

/-!
# Reads are pure

A selection or a join may load tables, and what is loaded is written again by the next save, in
another form than it had.  None of that can be told from the answers: a session that has read
and one that has not stay twins, so a run without its reads has the same answers.
-/

namespace Relbase

open Relbase.Action

def Command.isRead : Command → Bool
  | .select _ _ _ => true
  | .join _ _ _ _ => true
  | _ => false

namespace Workspace

variable {path name : Text} {first second : Workspace}

theorem Alike.loaded (h : Alike path name first second) (hfirst : first.IsSound path name)
    {spelled : Text} {table : Table} (htable : first.tableOf spelled = .ok table) :
    Alike path name (first.registered spelled.lower (.ofTable table)) second := by
  have htables := tableOf_registered_loaded htable
  have hschemas : (first.registered spelled.lower (.ofTable table)).database.schemas =
      first.database.schemas := by
    have hschema := hfirst.tableOf spelled
    rw [htable] at hschema
    rw [schemas_registered]
    exact Assoc.put_eq_self (by rw [Database.get?_schemas]; exact hschema)
  refine ⟨h.stores, hschemas.trans h.schemas, fun other => (htables other).trans (h.tables other),
    fun key hkey hbehind => ?_⟩
  rw [hschemas] at hkey
  rw [ahead_congr hschemas htables] at hbehind
  exact h.behind key hkey hbehind

end Workspace

namespace Session

variable {path name : Text} {first second : Session}

/-! ## One read -/

theorem Twins.enteredLeft (h : Twins path first second) {twin : Database} {workspace : Workspace}
    (hright : second.current = some (name, twin))
    (hworkspace : workspace.IsSound path name)
    (halike : Workspace.Alike path name workspace ⟨twin, second.store⟩) :
    Twins path (first.entered name workspace) second where
  left := h.left.entered hworkspace
  right := h.right
  stores := halike.stores
  names := by rw [databaseName, databaseName, hright]; rfl
  workspaces other database found hdatabase hfound := by
    cases hdatabase
    rw [hright] at hfound
    cases hfound
    exact halike

theorem Twins.ensures_loading (h : Twins path first second) (spelled : Text) :
    (onWorkspace (Workspace.loadTable spelled)).Ensures first
      (fun _ later => Twins path later second) fun _ later => Twins path later second := by
  rcases h.current with ⟨hleft, hright⟩ | ⟨name, database, twin, hleft, hright⟩
  · rw [Ensures, runOn_onWorkspace_of_none hleft]
    exact h
  have hworkspace := h.left.current name database hleft
  have halike := h.workspaces name database twin hleft hright
  have hloaded : Twins path
      (first.entered name ((Workspace.loadTable spelled).runOn ⟨database, first.store⟩).2) second := by
    rw [Workspace.runOn_loadTable]
    cases hfound : Workspace.tableOf ⟨database, first.store⟩ spelled with
    | error failure => exact h.enteredLeft hright hworkspace halike
    | ok table =>
        have hsound := Workspace.isSound_of_tableOf hworkspace hfound
        exact h.enteredLeft hright (hworkspace.registered (Registration.isSound_ofTable hsound))
          (halike.loaded hworkspace hfound)
  exact ensures_of_runOn (runOn_onWorkspace hleft _) (fun _ _ => hloaded) fun _ _ => hloaded

theorem Twins.ensures_read (h : Twins path first second) {command : Command}
    (hread : command.isRead = true) :
    (execute command).Ensures first (fun _ later => Twins path later second)
      fun _ later => Twins path later second := by
  cases command
  case select columns table condition =>
    rw [execute, ensures_bind]
    refine (h.ensures_loading table).mono (fun found later h => ?_) fun _ _ h => h
    simp only [ensures_bind, ensures_ofOutcome, ensures_pure]
    exact ⟨fun _ _ => h, fun _ _ => h⟩
  case join leftTable rightTable leftOn rightOn =>
    rw [execute, ensures_bind]
    refine (h.ensures_loading leftTable).mono (fun left later h => ?_) fun _ _ h => h
    rw [ensures_bind]
    refine (h.ensures_loading rightTable).mono (fun right last h => ?_) fun _ _ h => h
    simp only [ensures_bind, ensures_ofOutcome, ensures_pure]
    exact ⟨fun _ _ => h, fun _ _ => h⟩
  all_goals cases hread

/-! ## Runs -/

def Event.isRead : Event → Bool
  | .query text =>
      match Command.ofText text with
      | .ok command => command.isRead
      | .error _ => false
  | .reopening => false

def reply? (session : Session) : Event → Option (Except Failure (Option ResultSet))
  | .query text => some ((executeText text).runOn session).1
  | .reopening => none

def replies (session : Session) : List Event → List (Event × Option (Except Failure (Option ResultSet)))
  | [] => []
  | event :: rest => (event, session.reply? event) :: (session.react event).replies rest

theorem Twins.react_read (h : Twins path first second) {event : Event} (hread : event.isRead = true) :
    Twins path (first.react event) second := by
  cases event with
  | reopening => cases hread
  | query text =>
      simp only [Event.isRead] at hread
      simp only [Session.react, executeText]
      cases hcommand : Command.ofText text with
      | ok command =>
          rw [hcommand] at hread
          exact (h.ensures_read hread).finally
      | error fault =>
          rw [hcommand] at hread
          cases hread

theorem Twins.reply?_eq (h : Twins path first second) (event : Event) :
    first.reply? event = second.reply? event := by
  cases event with
  | reopening => rfl
  | query text => exact congrArg some (h.agree_executeText text).outcome

theorem Twins.react (h : Twins path first second) (event : Event) :
    Twins path (first.react event) (second.react event) := by
  cases event with
  | reopening => exact h.leave h.left.store h.right.store h.stores
  | query text => exact (h.agree_executeText text).related

theorem Twins.filter_replies (h : Twins path first second) (events : List Event) :
    (first.replies events).filter (fun reply => !reply.1.isRead) =
        second.replies (events.filter fun event => !event.isRead) ∧
      Twins path (events.foldl Session.react first)
        ((events.filter fun event => !event.isRead).foldl Session.react second) := by
  induction events generalizing first second with
  | nil => exact ⟨rfl, h⟩
  | cons event rest ih =>
      cases hread : event.isRead with
      -- Only the first session reads.
      | true =>
          obtain ⟨hreplies, htwins⟩ := ih (h.react_read hread)
          rw [replies, List.filter_cons_of_neg (by simp [hread]),
            List.filter_cons_of_neg (by simp [hread])]
          exact ⟨hreplies, htwins⟩
      | false =>
          obtain ⟨hreplies, htwins⟩ := ih (h.react event)
          rw [replies, List.filter_cons_of_pos (by simp [hread]),
            List.filter_cons_of_pos (by simp [hread]), replies, h.reply?_eq event, hreplies]
          exact ⟨rfl, htwins⟩

theorem twins_start (path : Text) :
    Twins path (start path Store.emptyRoot) (start path Store.emptyRoot) :=
  ⟨isSound_start path, isSound_start path, Store.Alike.refl path _, rfl, fun _ _ _ hcurrent => by
    cases hcurrent⟩

/-- A record that is shifted by a tab is cut when its table is read and then saved. -/
def cutRecord : List Event :=
  firstTable ++ [.query "INSERT INTO t VALUES ('x\ty');".toList, .reopening,
    .query "USE d;".toList, .query "SELECT * FROM t;".toList, .query "CREATE TABLE u (a);".toList]

example : (after "r".toList cutRecord).store.get? [['d'], Database.rowFileName ['t']] ≠
    (after "r".toList (cutRecord.filter fun event => !event.isRead)).store.get?
      [['d'], Database.rowFileName ['t']] := by
  decide +kernel

end Session

end Relbase
