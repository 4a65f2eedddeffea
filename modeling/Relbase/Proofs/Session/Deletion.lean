import Relbase.Proofs.Session.Changes
import Relbase.Proofs.Session.Durability
import Relbase.Proofs.Table.Deleting

/-!
# Deleting and selecting by one condition

A deletion that succeeds leaves exactly the records of which its condition was not true.  The
same condition may be true of some of them afterwards, since the deleted records no longer
count for the kinds of the columns; a selection then shows just these.
-/

namespace Relbase.Session

open Relbase.Action

variable {path spelled : Text} {session later : Session} {table : Table}

/-! ## Tables of a session -/

theorem IsSound.isSound_tableOf (h : session.IsSound path)
    (htable : session.tableOf spelled = .ok table) : table.IsSound spelled.lower := by
  obtain ⟨name, database, hcurrent, hfound⟩ := exists_current_of_tableOf htable
  exact Workspace.isSound_of_tableOf (h.current name database hcurrent) hfound

/-! ## Deletions -/

theorem IsSound.tableOf_of_delete (h : session.IsSound path) {condition : Condition}
    (hprintable : Spelling.Printable (.delete spelled condition)) {result : Option ResultSet}
    (hrun : (execute (.delete spelled condition)).runOn session = (.ok result, later)) :
    ∃ before, session.tableOf spelled = .ok before ∧ before.firstUnknown? condition = none ∧
      later.tableOf spelled = .ok (before.remainder condition) := by
  obtain ⟨name, database, workspace, last, hcurrent, hdone, hsaves, rfl⟩ :=
    h.exists_saved hprintable rfl hrun
  have hsession : session.tableOf spelled = Workspace.tableOf ⟨database, session.store⟩ spelled := by
    rw [tableOf, hcurrent]
  obtain ⟨before, rest, hbefore, hdeleted, rfl⟩ := Workspace.runOn_onTable_eq_ok.1 hdone
  rw [← hsession] at hbefore
  have hremainder := (h.isSound_tableOf hbefore).isTotal.runOn_deleteWhere condition
  rw [Table.deleteWhere, hdeleted] at hremainder
  cases hknown : before.firstUnknown? condition with
  | some comparison =>
      rw [hknown] at hremainder
      cases hremainder
  | none =>
      rw [hknown] at hremainder
      obtain ⟨_, rfl⟩ := Prod.mk.inj hremainder
      refine ⟨before, hbefore, hknown, Workspace.tableOf_loaded ?_⟩
      change last.database.tables.get? spelled.lower = _
      rw [hsaves.database_eq, Workspace.registered, OrderedMap.get?_put, if_pos rfl]

/-- After a deletion the same condition selects exactly the records left of which it is true
by the kinds that their columns have now.  There are none, and repeating the deletion changes
nothing, unless the kind of a column changed so that a comparison may have gained. -/
theorem selection_after_deletion (path : Text) (events : List Event) {text : Text}
    {condition : Condition} {result : Option ResultSet}
    (hcommand : Command.ofText text = .ok (.delete spelled condition))
    (hresult : ((executeText text).runOn (after path events)).1 = .ok result) :
    ∃ before rest, (after path events).tableOf spelled = .ok before ∧
      rest = before.remainder condition ∧
      (after path (events ++ [.query text])).tableOf spelled = .ok rest ∧
      ((execute (.select .all spelled (some condition))).runOn
        (after path (events ++ [.query text]))).1 = .ok (some (rest.whereTrue condition)) ∧
      (∀ again, ((executeText text).runOn (after path (events ++ [.query text]))).1 = .ok again →
        (after path (events ++ [.query text, .query text])).tableOf spelled =
          .ok (rest.remainder condition)) ∧
      (Table.GainsNothing condition before rest →
        (rest.whereTrue condition).rows = [] ∧ rest.remainder condition = rest) := by
  have hprintable := Spelling.printable_of_ofText hcommand
  have hexecute : executeText text = execute (.delete spelled condition) := by
    rw [executeText, hcommand]
  have hdelete (events : List Event) {result : Option ResultSet}
      (hresult : ((executeText text).runOn (after path events)).1 = .ok result) :
      ∃ before, (after path events).tableOf spelled = .ok before ∧
        before.firstUnknown? condition = none ∧
          (after path (events ++ [.query text])).tableOf spelled =
            .ok (before.remainder condition) := by
    rw [after_append, react]
    rw [hexecute] at hresult ⊢
    exact (isSound_after path events).tableOf_of_delete hprintable (Prod.ext hresult rfl)
  obtain ⟨before, hbefore, hknown, hlater⟩ := hdelete events hresult
  have htotal := ((isSound_after path _).isSound_tableOf hlater).isTotal
  refine ⟨before, _, hbefore, rfl, hlater, ?_, fun again hagain => ?_, fun hgains =>
    ⟨Table.rows_whereTrue_remainder hgains, Table.remainder_remainder hgains⟩⟩
  · exact outcome_select_of_answer hlater (htotal.answer_all_eq hknown)
  · obtain ⟨middle, hmiddle, _, hlast⟩ := hdelete (events ++ [.query text]) hagain
    rw [hlater] at hmiddle
    cases hmiddle
    rwa [List.append_assoc] at hlast

def numberAndText : List Event :=
  firstTable ++ [.query "INSERT INTO t VALUES ('1');".toList,
    .query "INSERT INTO t VALUES ('x');".toList]

theorem selection_after_deletion_of_text :
    ∃ rest, (after "r".toList (numberAndText ++
        [.query "DELETE FROM t WHERE a == 'x';".toList])).tableOf ['t'] = .ok rest ∧
      ((execute (.select .all ['t'] (some (.leaf ⟨['a'], .equal, ['x']⟩)))).runOn
        (after "r".toList (numberAndText ++ [.query "DELETE FROM t WHERE a == 'x';".toList]))).1 =
          .ok (some ⟨rest.attributes.names, []⟩) := by
  -- one evaluation for both, since most of it is the run that they share
  have hruns : ((executeText "DELETE FROM t WHERE a == 'x';".toList).runOn
        (after "r".toList numberAndText)).1.isOk = true ∧
      (((after "r".toList (numberAndText ++
        [.query "DELETE FROM t WHERE a == 'x';".toList])).tableOf ['t']).toOption.map
          fun table => table.columnKind ['a']) = some .integer := by decide +kernel
  obtain ⟨hok, hkind⟩ := hruns
  obtain ⟨result, hresult⟩ := exists_of_isOk hok
  obtain ⟨before, rest, -, -, hrest, hselect, -, hgains⟩ :=
    selection_after_deletion "r".toList numberAndText
      (show Command.ofText "DELETE FROM t WHERE a == 'x';".toList =
        .ok (.delete ['t'] (.leaf ⟨['a'], .equal, ['x']⟩)) by decide +kernel) hresult
  rw [hrest] at hkind
  have hnothing : Table.GainsNothing (.leaf ⟨['a'], .equal, ['x']⟩) before rest := by
    intro comparison hcomparison hgain
    cases List.mem_singleton.1 hcomparison
    cases (Option.some.inj hkind).symm.trans hgain.1
  refine ⟨rest, hrest, hselect.trans ?_⟩
  rw [Table.whereTrue, ← (hgains hnothing).1]
  rfl

/-- Beside the number `x` does not differ from 5, since the column is one of integers; without
the number the column is one of texts, and it does. -/
theorem deletion_leaves_matching_record :
    ((executeText "DELETE FROM t WHERE a != 5;".toList).runOn
        (after "r".toList numberAndText)).1.isOk = true ∧
      ((executeText "SELECT * FROM t WHERE a != 5;".toList).runOn
        (after "r".toList (numberAndText ++
          [.query "DELETE FROM t WHERE a != 5;".toList]))).1.toOption =
            some (some ⟨["id".toList, ['a']], [[['2'], ['x']]]⟩) := by
  decide +kernel

end Relbase.Session
