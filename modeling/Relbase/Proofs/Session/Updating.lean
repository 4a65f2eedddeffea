import Relbase.Proofs.Session.Altering
import Relbase.Proofs.Session.Deletion
import Relbase.Proofs.Session.Frame
import Relbase.Proofs.Table.Updating

/-!
# How an update ends

An update fails where it has a record to change and an assignment that is refused, and where
the database in use cannot be saved.  An assignment that is refused stops it in its first
record, before anything is written.
-/

namespace Relbase.Session

variable {path spelled : Text} {session : Session} {before : Table} {ids : List Int}
  {assignments : List (Text × Text)} {condition : Condition}

theorem IsSound.ends_update (h : session.IsSound path)
    (hprintable : Spelling.Printable (.update spelled assignments condition))
    (hbefore : session.tableOf spelled = .ok before) :
    Ends path spelled session before ((Table.updateWhere assignments condition).runOn before)
      ((execute (.update spelled assignments condition)).runOn session).1
      ((execute (.update spelled assignments condition)).runOn session).2 :=
  h.ends hprintable rfl hbefore

theorem IsSound.update_accepted (h : session.IsSound path)
    (hprintable : Spelling.Printable (.update spelled assignments condition))
    (hbefore : session.tableOf spelled = .ok before) (hids : before.select condition = .ok ids)
    (haccepted : ids = [] ∨ ∀ assignment ∈ assignments, before.refuses assignment.1 = false) :
    ((∃ failure, ((execute (.update spelled assignments condition)).runOn session).1 =
        .error failure) ↔ ¬ session.IsSavable path) ∧
      ((execute (.update spelled assignments condition)).runOn session).2.tableOf spelled =
        .ok (before.updated ids assignments) := by
  have hends := h.ends_update hprintable hbefore
  rw [(h.isSound_tableOf hbefore).runOn_updateWhere hids haccepted] at hends
  exact ⟨hends.saved rfl rfl, hends.table⟩

theorem IsSound.update_refused (h : session.IsSound path)
    (hprintable : Spelling.Printable (.update spelled assignments condition))
    (hbefore : session.tableOf spelled = .ok before) (hids : before.select condition = .ok ids)
    {first : Int} {rest : List Int} (hfirst : ids = first :: rest)
    {made others : List (Text × Text)} {refused : Text × Text}
    (hsplit : assignments = made ++ refused :: others)
    (hmade : ∀ assignment ∈ made, before.refuses assignment.1 = false)
    (hrefused : before.refuses refused.1 = true) :
    ((execute (.update spelled assignments condition)).runOn session).1 =
        .error (.reported (Table.refusal refused.1)) ∧
      (∀ id ∈ rest, first < id) ∧
      ((execute (.update spelled assignments condition)).runOn session).2.tableOf spelled =
        .ok (before.updated [first] made) ∧
      ((execute (.update spelled assignments condition)).runOn session).2.store =
        session.store := by
  have hsound := h.isSound_tableOf hbefore
  have hends := h.ends_update hprintable hbefore
  subst hfirst hsplit
  rw [hsound.runOn_updateWhere_refused hids hmade hrefused] at hends
  obtain ⟨houtcome, hstore⟩ := hends.refused _ rfl
  exact ⟨houtcome, fun _ => List.rel_of_pairwise_cons (hsound.isTotal.of_select hids).1,
    hends.table, hstore⟩

/-- An update fails exactly if it has a record to change and an assignment that is refused, or
the database cannot be saved.  If no assignment is refused, the assigned values are in the
records that the condition selected, and all else is what it was.  Otherwise the error is that
of the first one refused, the record of the least id has the values assigned before it, and no
file has changed. -/
theorem update_ends (path : Text) (events : List Event) {text : Text}
    (hcommand : Command.ofText text = .ok (.update spelled assignments condition))
    (hbefore : (after path events).tableOf spelled = .ok before)
    (hids : before.select condition = .ok ids) :
    ((∃ failure, ((executeText text).runOn (after path events)).1 = .error failure) ↔
      (ids ≠ [] ∧ ∃ assignment ∈ assignments, before.refuses assignment.1 = true) ∨
        ¬ (after path events).IsSavable path) ∧
    ((ids = [] ∨ ∀ assignment ∈ assignments, before.refuses assignment.1 = false) →
      (after path (events ++ [.query text])).tableOf spelled =
        .ok (before.updated ids assignments)) ∧
    ∀ first rest made refused others, ids = first :: rest →
      assignments = made ++ refused :: others →
      (∀ assignment ∈ made, before.refuses assignment.1 = false) →
      before.refuses refused.1 = true →
        ((executeText text).runOn (after path events)).1 =
            .error (.reported (Table.refusal refused.1)) ∧
          (∀ id ∈ rest, first < id) ∧
          (after path (events ++ [.query text])).tableOf spelled =
            .ok (before.updated [first] made) ∧
          (after path (events ++ [.query text])).store = (after path events).store := by
  have hsound := isSound_after path events
  have hprintable := Spelling.printable_of_ofText hcommand
  have hexecute : executeText text = execute (.update spelled assignments condition) := by
    rw [executeText, hcommand]
  rw [after_append, react, hexecute]
  refine ⟨?_, fun haccepted => (hsound.update_accepted hprintable hbefore hids haccepted).2,
    fun first rest made refused others hfirst hsplit hmade hrefused =>
      hsound.update_refused hprintable hbefore hids hfirst hsplit hmade hrefused⟩
  by_cases hrefused : ids ≠ [] ∧ ∃ assignment ∈ assignments, before.refuses assignment.1 = true
  · refine iff_of_true ?_ (.inl hrefused)
    obtain ⟨hnonempty, hexists⟩ := hrefused
    obtain ⟨first, rest, hfirst⟩ := List.exists_cons_of_ne_nil hnonempty
    obtain ⟨made, refused, others, hsplit, hmade, hrefused⟩ := before.exists_first_refused hexists
    exact ⟨_, (hsound.update_refused hprintable hbefore hids hfirst hsplit hmade hrefused).1⟩
  · rw [(hsound.update_accepted hprintable hbefore hids ?_).1]
    · simp only [hrefused, false_or]
    · by_contra haccepted
      apply hrefused
      simpa using haccepted

theorem update_ends_refused :
    ∃ before, (after "r".toList numberAndText).tableOf ['t'] = .ok before ∧
      ((executeText "UPDATE t SET a = 'y', id = 5 WHERE id > 0;".toList).runOn
        (after "r".toList numberAndText)).1 = .error (.reported .primaryKeyAlteration) ∧
      (after "r".toList (numberAndText ++
        [.query "UPDATE t SET a = 'y', id = 5 WHERE id > 0;".toList])).tableOf ['t'] =
          .ok (before.updated [1] [(['a'], ['y'])]) := by
  have hrun : ((after "r".toList numberAndText).tableOf ['t']).toOption.any (fun table =>
      (table.select (.leaf ⟨idName, .greater, ['0']⟩)).toOption == some [1, 2] &&
        !table.refuses ['a'] && table.refuses idName) = true := by decide +kernel
  obtain ⟨before, hbefore, htable⟩ := exists_ok_of_any hrun
  simp only [Bool.and_eq_true, beq_iff_eq, Bool.not_eq_true'] at htable
  obtain ⟨⟨hids, haccepted⟩, hrefused⟩ := htable
  obtain ⟨-, -, hrefusal⟩ := update_ends "r".toList numberAndText
    (show Command.ofText "UPDATE t SET a = 'y', id = 5 WHERE id > 0;".toList =
      .ok (.update ['t'] [(['a'], ['y']), (idName, ['5'])] (.leaf ⟨idName, .greater, ['0']⟩)) by
        decide +kernel) hbefore (eq_ok_of_toOption hids)
  obtain ⟨houtcome, -, hlater, -⟩ := hrefusal 1 [2] [(['a'], ['y'])] (idName, ['5']) [] rfl rfl
    (fun assignment hmem => by cases List.mem_singleton.1 hmem; exact haccepted) hrefused
  exact ⟨before, hbefore, houtcome, hlater⟩

def recordBesideRefused : List Event :=
  firstTable ++ [.query "INSERT INTO t VALUES ('x');".toList,
    .query ("CREATE TABLE ".toList ++ overlongName ++ " (b);".toList)]

/-- The record cannot be updated then, although its table has the attribute, and its row file
is changed all the same. -/
theorem update_fails_beside_refused :
    Command.ofText "UPDATE t SET a = 'y' WHERE id == 1;".toList =
        .ok (.update ['t'] [(['a'], ['y'])] (.leaf ⟨idName, .equal, ['1']⟩)) ∧
      (∃ before, (after "r".toList recordBesideRefused).tableOf ['t'] = .ok before ∧
        before.select (.leaf ⟨idName, .equal, ['1']⟩) = .ok [1] ∧ before.refuses ['a'] = false) ∧
      (∃ failure, ((executeText "UPDATE t SET a = 'y' WHERE id == 1;".toList).runOn
        (after "r".toList recordBesideRefused)).1 = .error failure) ∧
      (after "r".toList recordBesideRefused).store.get? [['d'], "t.tab".toList] =
        some (.file (.text "id\ta\n1\tx\n".toList)) ∧
      (after "r".toList (recordBesideRefused ++
        [.query "UPDATE t SET a = 'y' WHERE id == 1;".toList])).store.get? [['d'], "t.tab".toList] =
          some (.file (.text "id\ta\n1\ty\n".toList)) := by
  obtain ⟨htable, hfailed, hfile, hlater⟩ :
      ((after "r".toList recordBesideRefused).tableOf ['t']).toOption.any (fun table =>
          (table.select (.leaf ⟨idName, .equal, ['1']⟩)).toOption == some [1] &&
            !table.refuses ['a']) = true ∧
        ((executeText "UPDATE t SET a = 'y' WHERE id == 1;".toList).runOn
          (after "r".toList recordBesideRefused)).1.isOk = false ∧
        (after "r".toList recordBesideRefused).store.get? [['d'], "t.tab".toList] =
          some (.file (.text "id\ta\n1\tx\n".toList)) ∧
        (after "r".toList (recordBesideRefused ++
          [.query "UPDATE t SET a = 'y' WHERE id == 1;".toList])).store.get?
            [['d'], "t.tab".toList] = some (.file (.text "id\ta\n1\ty\n".toList)) := by
    decide +kernel
  obtain ⟨before, hbefore, hboth⟩ := exists_ok_of_any htable
  simp only [Bool.and_eq_true, beq_iff_eq, Bool.not_eq_true'] at hboth
  refine ⟨by decide +kernel,
    ⟨before, hbefore, eq_ok_of_toOption hboth.1, hboth.2⟩,
    exists_of_not_isOk hfailed, hfile, hlater⟩

end Relbase.Session
