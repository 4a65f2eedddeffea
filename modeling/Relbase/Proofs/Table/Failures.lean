import Relbase.Execution
import Relbase.Proofs.Table.Selecting

/-!
# How actions on tables fail

The records of a sound table have the cells that are asked for, so that every failure of an
action on it is reported, but for one: an id with too many digits cannot be written.  All
actions but insertions leave the counter as it is.
-/

namespace Relbase

open Relbase.Action

namespace Table

variable {key : Text} {table : Table}

/-! ## Loading -/

theorem ensures_loadRows (path : Text) {rows : List (List Text)} (h : idName ∈ table.columns) :
    (loadRows path rows).Ensures table (fun _ later => later.schema = table.schema)
      fun failure later => failure.IsEarly ∧ later.schema = table.schema := by
  induction rows generalizing table with
  | nil => exact rfl
  | cons cells rest ih =>
      obtain ⟨value, hvalue⟩ := Option.isSome_iff_exists.1
        ((RowFile.isSome_get?_recordOf table.nodup_columns cells idName).2 h)
      simp only [loadRows, store, ensures_bind, ensures_get, hvalue]
      split
      · exact ⟨⟨trivial, rfl⟩, rfl⟩
      · rw [ensures_bind, ensures_modify]
        exact @ih { table with records := table.records.insert _ _ } h

theorem ensures_load (path : Text) (file : RowFile) (h : idName ∈ table.columns) :
    (load path file).Ensures table (fun _ later => later.schema = table.schema)
      fun failure later => failure.IsEarly ∧ later.schema = table.schema := by
  rw [load, ensures_bind, ensures_modify]
  exact @ensures_loadRows { table with records := SortedMap.empty } path file.rows h

/-! ## Actions that take no id -/

/-- On sound tables an action leaves the counter as it is, and its failures are reported. -/
def IsSteady {α : Type} (action : Action Table α) : Prop :=
  ∀ key table, IsSound key table →
    action.Ensures table (fun _ later => later.schema.nextId = table.schema.nextId)
      fun failure later => failure.IsReported ∧ later.schema.nextId = table.schema.nextId

theorem isSteady_addAttribute (name : Text) : IsSteady (addAttribute name) := fun _ table _ =>
  (ensures_addAttribute table name).mono (fun _ _ ⟨_, _, hlater⟩ => by rw [hlater]; rfl)
    fun _ _ ⟨hreported, hlater⟩ => ⟨hreported, by rw [hlater]⟩

theorem isSteady_dropAttribute (name : Text) : IsSteady (dropAttribute name) := fun _ table _ =>
  (ensures_dropAttribute table name).mono (fun _ _ ⟨_, hlater⟩ => by rw [hlater]; rfl)
    fun _ _ ⟨hreported, hlater⟩ => ⟨hreported, by rw [hlater]⟩

theorem isSteady_updateRecords (assignments : List (Text × Text)) (ids : List Int) :
    IsSteady (updateRecords assignments ids) := by
  intro key table _
  have hkept : ∀ before later : Table, before.schema.nextId = table.schema.nextId →
      before.Assigns later → later.schema.nextId = table.schema.nextId := by
    rintro before _ hbefore ⟨id, record, name, value, -, -, -, rfl⟩
    exact hbefore
  exact ensures_updateRecords hkept rfl assignments ids

/-! ## Selecting -/

theorem isReported_of_select (h : table.IsSound key) {condition : Condition} {failure : Failure}
    (hselect : table.select condition = .error failure) : failure.IsReported := by
  rw [h.isTotal.select_eq] at hselect
  cases hunknown : table.firstUnknown? condition with
  | some comparison =>
      rw [hunknown] at hselect
      cases hselect
      trivial
  | none =>
      rw [hunknown] at hselect
      cases hselect

theorem isSteady_selected {condition : Condition} {change : List Int → Action Table Unit}
    (hchange : ∀ ids, IsSteady (change ids)) :
    IsSteady (do
      let ids ← Action.ofOutcome ((← get).select condition)
      change ids) := by
  intro key table h
  simp only [ensures_bind, ensures_get, ensures_ofOutcome]
  exact ⟨fun ids _ => hchange ids key table h,
    fun failure hfailure => ⟨isReported_of_select h hfailure, trivial⟩⟩

end Table

end Relbase
