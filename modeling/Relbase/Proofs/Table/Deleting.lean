import Relbase.Execution
import Relbase.Proofs.Table.Kinds

/-!
# Deleting what a condition selects

The records that a condition selects are deleted, and the others stay as they are.  A
selection of the whole table by a condition shows the records of which it is true.
-/

namespace Relbase

open Relbase.Action

namespace Table

variable {table : Table}

/-! ## Deleting -/

def without (table : Table) (test : Record → Bool) : Table :=
  { table with records := table.records.filter fun _ record => !test record }

theorem filter_idsWhere (table : Table) (test : Record → Bool) :
    table.records.filter (fun id _ => !(table.idsWhere test).contains id) =
      table.records.filter fun _ record => !test record := by
  refine SortedMap.ext_entries (List.filter_congr fun entry hentry => ?_)
  have hrecord : table.records.get? entry.1 = some entry.2 := SortedMap.get?_eq_some_iff.2 hentry
  have hmem : entry.1 ∈ table.idsWhere test ↔ test entry.2 = true := by
    rw [mem_idsWhere, hrecord]
    simp
  rw [Bool.not_inj_iff, Bool.eq_iff_iff, List.contains_iff_mem, hmem]

def remainder (table : Table) (condition : Condition) : Table :=
  table.without fun record => condition.eval (table.satisfies record)

def deleteWhere (condition : Condition) : Action Table Unit := do
  let ids ← Action.ofOutcome ((← get).select condition)
  let _ ← deleteRecords ids

theorem IsTotal.runOn_deleteWhere (h : table.IsTotal) (condition : Condition) :
    (deleteWhere condition).runOn table =
      match table.firstUnknown? condition with
      | some comparison => (.error (.reported (.attributeNotFound comparison.column)), table)
      | none => (.ok (), table.remainder condition) := by
  rw [deleteWhere, runOn_get_bind, runOn_bind, runOn_ofOutcome, h.select_eq]
  cases table.firstUnknown? condition with
  | some comparison => rfl
  | none =>
      obtain ⟨count, hrun⟩ := exists_runOn_deleteRecords table
        (table.idsWhere fun record => condition.eval (table.satisfies record))
      rw [filter_idsWhere] at hrun
      exact runOn_bind_of_ok hrun

/-! ## Selecting whole rows -/

def whole (table : Table) : ResultSet :=
  ⟨table.attributes.names, table.rows table.attributes.names⟩

def rowsWhere (table : Table) (test : Record → Bool) (names : List Text) : List (List Text) :=
  (table.records.entries.filter fun entry => test entry.2).map fun entry =>
    row (names.map Text.lower) entry.2

theorem rowsOf_idsWhere (table : Table) (test : Record → Bool) (names : List Text) :
    table.rowsOf names (table.idsWhere test) = table.rowsWhere test names := by
  have hcontained : (table.idsWhere test).filter table.records.contains = table.idsWhere test := by
    refine List.filter_eq_self.2 fun id hid => ?_
    obtain ⟨record, hrecord, _⟩ := mem_idsWhere.1 hid
    rw [SortedMap.contains, hrecord]
    rfl
  have hsorted : (table.idsWhere test).mergeSort (· ≤ ·) = table.idsWhere test :=
    List.mergeSort_eq_self _ ((table.pairwise_idsWhere test).imp Int.le_of_lt)
  rw [rowsOf, hcontained, hsorted, idsWhere, rowsWhere, List.filterMap_map]
  refine (List.filterMap_congr fun entry hentry => ?_).trans (congrFun List.filterMap_eq_map _)
  have hrecord : table.records.get? entry.1 = some entry.2 :=
    SortedMap.get?_eq_some_iff.2 (List.mem_of_mem_filter hentry)
  simp [hrecord]

def whereTrue (table : Table) (condition : Condition) : ResultSet :=
  ⟨table.attributes.names, table.rowsWhere (fun record => condition.eval (table.satisfies record))
    table.attributes.names⟩

theorem IsTotal.answer_all_eq (h : table.IsTotal) {condition : Condition}
    (hknown : table.firstUnknown? condition = none) :
    table.answer .all (some condition) = .ok (table.whereTrue condition) := by
  simp only [answer, resolve, h.select_eq, hknown, bind, Except.bind, pure, Except.pure,
    rowsOf_idsWhere]
  rfl

/-! ## Selecting after deleting -/

/-- The kinds of the columns of a condition have not changed so that a comparison of it may
have gained. -/
def GainsNothing (condition : Condition) (old new : Table) : Prop :=
  ∀ comparison ∈ condition.leaves, ¬ comparison.comparator.Gains
    (old.columnKind comparison.column) (new.columnKind comparison.column)

theorem eval_remainder {condition : Condition}
    (h : GainsNothing condition table (table.remainder condition)) {entry : Int × Record}
    (hentry : entry ∈ (table.remainder condition).records.entries) :
    condition.eval ((table.remainder condition).satisfies entry.2) = false := by
  obtain ⟨_, hkept⟩ : entry ∈ table.records.entries ∧
      (!condition.eval (table.satisfies entry.2)) = true := List.mem_filter.1 hentry
  refine Bool.eq_false_iff.2 fun heval => ?_
  rw [eval_of_not_gains h heval] at hkept
  cases hkept

theorem rows_whereTrue_remainder {condition : Condition}
    (h : GainsNothing condition table (table.remainder condition)) :
    ((table.remainder condition).whereTrue condition).rows = [] := by
  refine List.map_eq_nil_iff.2 (List.filter_eq_nil_iff.2 fun entry hentry => ?_)
  exact ne_true_of_eq_false (eval_remainder h hentry)

theorem remainder_remainder {condition : Condition}
    (h : GainsNothing condition table (table.remainder condition)) :
    (table.remainder condition).remainder condition = table.remainder condition := by
  have hrecords : (table.remainder condition).records.filter (fun _ record =>
      !condition.eval ((table.remainder condition).satisfies record)) =
        (table.remainder condition).records := by
    refine SortedMap.ext_entries (List.filter_eq_self.2 fun entry hentry => ?_)
    exact congrArg not (eval_remainder h hentry)
  rw [remainder, without, hrecords]

end Table

end Relbase
