import Relbase.Execution
import Relbase.Proofs.Action
import Relbase.Proofs.ErrorClass
import Relbase.Proofs.Query.Recasing
import Relbase.Proofs.Session.Run

/-!
# Executing recased queries

Names are looked up in lower case, so a command does the same as the command with its
names in lower case: from every session it leaves the same session with the same result,
or it fails with an error of the same class.  Only the messages show the spelling.
-/

namespace Relbase

open Spelling

/-! ## Outcomes up to messages -/

theorem mapError_bind_congr {ε κ α β : Type} {f : ε → κ} {first second : Except ε α}
    {next follow : α → Except ε β} (h : first.mapError f = second.mapError f)
    (hnext : ∀ result, (next result).mapError f = (follow result).mapError f) :
    (first >>= next).mapError f = (second >>= follow).mapError f := by
  cases first with
  | ok result =>
      cases second with
      | ok other =>
          cases h
          exact hnext result
      | error failure => cases h
  | error failure =>
      cases second with
      | ok other => cases h
      | error other => exact congrArg Except.error (Except.error.inj h)

def classed {α : Type} (outcome : Except Failure α) : Except (ErrorClass ⊕ Fault) α :=
  outcome.mapError Failure.errorClass

namespace Action

variable {σ α β : Type}

/-- Two actions that from every state leave one state, with one result or with failures of
one class. -/
def SameButMessages (action twin : Action σ α) : Prop :=
  ∀ state, (action.runOn state).2 = (twin.runOn state).2 ∧
    classed (action.runOn state).1 = classed (twin.runOn state).1

theorem SameButMessages.refl (action : Action σ α) : SameButMessages action action :=
  fun _ => ⟨rfl, rfl⟩

theorem SameButMessages.bind {action twin : Action σ α} {next follow : α → Action σ β}
    (h : SameButMessages action twin)
    (hnext : ∀ result, SameButMessages (next result) (follow result)) :
    SameButMessages (action >>= next) (twin >>= follow) := by
  intro state
  obtain ⟨hstate, houtcome⟩ := h state
  rw [runOn_bind, runOn_bind]
  rcases haction : action.runOn state with ⟨outcome, later⟩
  rcases htwin : twin.runOn state with ⟨other, last⟩
  rw [haction, htwin] at hstate houtcome
  change later = last at hstate
  subst hstate
  cases outcome with
  | ok result =>
      cases other with
      | ok found =>
          cases houtcome
          exact hnext result later
      | error failure => cases houtcome
  | error failure =>
      cases other with
      | ok found => cases houtcome
      | error other => exact ⟨rfl, congrArg Except.error (Except.error.inj houtcome)⟩

theorem sameButMessages_ofOutcome {outcome other : Except Failure α}
    (h : classed outcome = classed other) :
    SameButMessages (ofOutcome outcome : Action σ α) (ofOutcome other) :=
  fun _ => ⟨rfl, h⟩

end Action

open Relbase.Action

/-! ## Conditions -/

theorem AttributeSet.contains_lower (set : AttributeSet) (name : Text) :
    set.contains name.lower = set.contains name := by
  rw [contains, contains, Text.lower_lower]

namespace Table

theorem satisfying_lower (table : Table) (comparison : Comparison) :
    classed (table.satisfying (comparison.mapTexts Text.lower id)) =
      classed (table.satisfying comparison) := by
  have hvalues : table.values comparison.column.lower = table.values comparison.column := by
    rw [values, values, Text.lower_lower]
  simp only [satisfying, Comparison.mapTexts, AttributeSet.contains_lower, hvalues,
    Text.lower_lower, id_eq]
  split
  · rfl
  · rfl

theorem select_lower (table : Table) (condition : Condition) :
    classed (table.select (condition.mapTexts Text.lower id)) =
      classed (table.select condition) := by
  induction condition with
  | leaf comparison => exact satisfying_lower table comparison
  | joined left connective right ihLeft ihRight =>
      exact mapError_bind_congr ihLeft fun _ => mapError_bind_congr ihRight fun _ => rfl

/-! ## Selecting and joining -/

theorem canonical_lower (attributes : AttributeSet) (name : Text) :
    (attributes.canonical name.lower).mapError DbError.errorClass =
      (attributes.canonical name).mapError DbError.errorClass := by
  rw [AttributeSet.canonical, AttributeSet.canonical, Text.lower_lower]
  split <;> rfl

theorem resolveNames_lower (attributes : AttributeSet) (names seen : List Text) :
    (resolveNames attributes seen (names.map Text.lower)).mapError DbError.errorClass =
      (resolveNames attributes seen names).mapError DbError.errorClass := by
  induction names generalizing seen with
  | nil => rfl
  | cons name names ih =>
      rw [List.map_cons, resolveNames, resolveNames, AttributeSet.contains_lower, Text.lower_lower]
      split
      · rfl
      · split
        · exact ih seen
        · exact mapError_bind_congr (canonical_lower attributes name) fun _ =>
            mapError_bind_congr (ih (name.lower :: seen)) fun _ => rfl

theorem resolve_lower (attributes : AttributeSet) (columns : Columns) :
    (resolve attributes (columns.mapNames Text.lower)).mapError DbError.errorClass =
      (resolve attributes columns).mapError DbError.errorClass := by
  cases columns with
  | all => rfl
  | named names => exact resolveNames_lower attributes names []

theorem answer_lower (table : Table) (columns : Columns) (condition : Option Condition) :
    classed (table.answer (columns.mapNames Text.lower)
        (condition.map (Condition.mapTexts Text.lower id))) =
      classed (table.answer columns condition) := by
  have hnames := resolve_lower table.attributes columns
  rw [answer, answer]
  cases hfirst : resolve table.attributes (columns.mapNames Text.lower) with
  | error error =>
      cases hsecond : resolve table.attributes columns with
      | error other =>
          rw [hfirst, hsecond] at hnames
          exact congrArg (fun found => Except.error (Sum.inl found)) (Except.error.inj hnames)
      | ok names =>
          rw [hfirst, hsecond] at hnames
          cases hnames
  | ok names =>
      cases hsecond : resolve table.attributes columns with
      | error other =>
          rw [hfirst, hsecond] at hnames
          cases hnames
      | ok others =>
          rw [hfirst, hsecond] at hnames
          cases hnames
          cases condition with
          | none => rfl
          | some test => exact mapError_bind_congr (select_lower table test) fun _ => rfl

theorem carried_lower (table : Table) (on : Text) : table.carried on.lower = table.carried on := by
  rw [carried, carried, Text.lower_lower]

theorem joinRecord_lower (left right : Table) (leftOn rightOn : Text) (leftRecord : Record)
    (records : List Record) :
    joinRecord left right leftOn.lower rightOn.lower leftRecord records =
      joinRecord left right leftOn rightOn leftRecord records := by
  induction records with
  | nil => rfl
  | cons record records ih =>
      rw [joinRecord, joinRecord, ih, Text.lower_lower, Text.lower_lower, carried_lower,
        carried_lower]

theorem joinRecords_lower (left right : Table) (leftOn rightOn : Text) (records : List Record) :
    joinRecords left right leftOn.lower rightOn.lower records =
      joinRecords left right leftOn rightOn records := by
  induction records with
  | nil => rfl
  | cons record records ih => rw [joinRecords, joinRecords, ih, joinRecord_lower]

theorem join_lower (left right : Table) (leftOn rightOn : Text) :
    classed (left.join right leftOn.lower rightOn.lower) =
      classed (left.join right leftOn rightOn) := by
  rw [join, join, AttributeSet.contains_lower, AttributeSet.contains_lower, joinAttributes,
    joinAttributes, carried_lower, carried_lower, joinRecords_lower]
  split
  · rfl
  · split
    · rfl
    · rfl

/-! ## Changing tables -/

theorem dropAttribute_lower (name : Text) :
    SameButMessages (dropAttribute name.lower) (dropAttribute name) := by
  intro table
  have herase : ∀ set : AttributeSet, set.erase name.lower = set.erase name := by
    intro set
    simp only [AttributeSet.erase, Text.lower_lower]
  simp only [dropAttribute, runOn_get_bind, AttributeSet.contains_lower, Schema.isKey,
    Text.lower_lower, herase]
  split
  · exact ⟨rfl, rfl⟩
  · exact ⟨rfl, rfl⟩

end Table

theorem Workspace.onTable_sameButMessages {α : Type} (name : Text) {action twin : Action Table α}
    (h : SameButMessages action twin) :
    SameButMessages (Workspace.onTable name action) (Workspace.onTable name twin) := by
  refine .bind (.refl _) fun table => ?_
  obtain ⟨hstate, houtcome⟩ := h table
  rcases haction : action.runOn table with ⟨outcome, later⟩
  rcases htwin : twin.runOn table with ⟨other, last⟩
  rw [haction, htwin] at hstate houtcome
  change later = last at hstate
  subst hstate
  exact .bind (.refl _) fun _ => sameButMessages_ofOutcome houtcome

namespace Session

theorem onWorkspace_sameButMessages {α : Type} {action twin : Action Workspace α}
    (h : SameButMessages action twin) :
    SameButMessages (onWorkspace action) (onWorkspace twin) := by
  refine .bind (.refl _) fun session => ?_
  split
  · exact .refl _
  · rename_i name database _
    obtain ⟨hstate, houtcome⟩ := h ⟨database, session.store⟩
    rcases haction : action.runOn ⟨database, session.store⟩ with ⟨outcome, later⟩
    rcases htwin : twin.runOn ⟨database, session.store⟩ with ⟨other, last⟩
    rw [haction, htwin] at hstate houtcome
    change later = last at hstate
    subst hstate
    exact .bind (.refl _) fun _ => sameButMessages_ofOutcome houtcome

theorem changeTable_sameButMessages (name : Text) {change twin : Action Table Unit}
    (h : SameButMessages change twin) :
    SameButMessages (changeTable name change) (changeTable name twin) :=
  .bind (onWorkspace_sameButMessages (Workspace.onTable_sameButMessages name h)) fun _ => .refl _

theorem changeSelected_lower (name : Text) (condition : Condition)
    (change : List Int → Action Table Unit) :
    SameButMessages (changeSelected name (condition.mapTexts Text.lower id) change)
      (changeSelected name condition change) :=
  changeTable_sameButMessages name (.bind (.refl _) fun table =>
    .bind (sameButMessages_ofOutcome (table.select_lower condition)) fun _ => .refl _)

/-! ## Commands -/

theorem execute_folded (command : Command) :
    SameButMessages (execute command.folded) (execute command) := by
  cases command with
  | insert table values =>
      rw [show Command.folded (.insert table values) = .insert table values from
        congrArg (Command.insert table) (List.map_id values)]
      exact .refl _
  | dropAttribute table name =>
      exact .bind (changeTable_sameButMessages table (Table.dropAttribute_lower name)) fun _ => .refl _
  | select columns table condition =>
      refine .bind (.refl _) fun found => .bind (sameButMessages_ofOutcome ?_) fun _ => .refl _
      exact found.answer_lower columns condition
  | delete table condition =>
      exact .bind (changeSelected_lower table condition _) fun _ => .refl _
  | update table assignments condition =>
      have hassignments : (assignments.map fun assignment => (assignment.1, id assignment.2)) =
          assignments := List.map_id assignments
      have hfolded : Command.folded (.update table assignments condition) =
          .update table assignments (condition.mapTexts Text.lower id) :=
        congrArg (Command.update table · (condition.mapTexts Text.lower id)) hassignments
      rw [hfolded]
      exact .bind (changeSelected_lower table condition _) fun _ => .refl _
  | join leftTable rightTable leftColumn rightColumn =>
      refine .bind (.refl _) fun left => .bind (.refl _) fun right =>
        .bind (sameButMessages_ofOutcome ?_) fun _ => .refl _
      exact left.join_lower right leftColumn rightColumn
  | _ => exact .refl _

/-- From every session a query and the same query recased lead to one session, with one
result or with errors of one class. -/
theorem executeText_recased (session : Session) {query twin : Text} (h : IsRecasing query twin) :
    ((executeText twin).runOn session).2 = ((executeText query).runOn session).2 ∧
      classed ((executeText twin).runOn session).1 =
        classed ((executeText query).runOn session).1 := by
  rw [executeText, executeText]
  rcases h.corresponds.inversion with
    ⟨fault, other, hquery, htwin, hclass⟩ | ⟨command, image, hquery, htwin, hfolded⟩
  · rw [hquery, htwin]
    exact ⟨rfl, congrArg (fun found => Except.error (Sum.inl found)) hclass.symm⟩
  · rw [hquery, htwin]
    have hcommand := execute_folded command session
    have himage := execute_folded image session
    rw [hfolded] at himage
    exact ⟨himage.1.symm.trans hcommand.1, himage.2.symm.trans hcommand.2⟩

def oneRecord : List Event :=
  [.query "CREATE DATABASE d;".toList, .query "USE d;".toList,
    .query "CREATE TABLE t (Age);".toList,
    .query "INSERT INTO t VALUES ('x');".toList]

theorem executeText_recased_selection :
    IsRecasing "SELECT age FROM t WHERE AGE == 'x';".toList
        "Select aGe From T Where age == 'x';".toList ∧
      ((executeText "Select aGe From T Where age == 'x';".toList).runOn
          (after "r".toList oneRecord)).2 =
        ((executeText "SELECT age FROM t WHERE AGE == 'x';".toList).runOn
          (after "r".toList oneRecord)).2 ∧
      classed ((executeText "Select aGe From T Where age == 'x';".toList).runOn
        (after "r".toList oneRecord)).1 = .ok (some ⟨["Age".toList], [[['x']]]⟩) := by
  have hrecasing : IsRecasing "SELECT age FROM t WHERE AGE == 'x';".toList
      "Select aGe From T Where age == 'x';".toList :=
    ⟨by decide +kernel, by decide +kernel, by decide +kernel⟩
  obtain ⟨hstate, hclass⟩ := executeText_recased (after "r".toList oneRecord) hrecasing
  exact ⟨hrecasing, hstate, hclass.trans (by decide +kernel)⟩

end Session

end Relbase
