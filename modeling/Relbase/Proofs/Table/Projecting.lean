import Relbase.Proofs.Table.Answers
import Relbase.Proofs.Table.Deleting

/-!
# Parts of the whole table

A selection shows some columns of some rows of the whole table.  The rows are those whose ids
the condition selects, in their order, and what a deletion by the condition leaves is the
other rows.  The columns are those requested, each once and as it is spelled in the table.
-/

namespace Relbase

/-! ## Parts of results -/

namespace ResultSet

def cellUnder (result : ResultSet) (row : List Text) (name : Text) : Text :=
  (Assoc.get? name (result.names.zip row)).getD []

def project (result : ResultSet) (names : List Text) : ResultSet :=
  ⟨names, result.rows.map fun row => names.map (result.cellUnder row)⟩

def restrict (result : ResultSet) (ids : List Int) (keep : Int → Bool) : ResultSet :=
  ⟨result.names, ((ids.zip result.rows).filter fun entry => keep entry.1).map Prod.snd⟩

theorem cellUnder_map {result : ResultSet} {name : Text} (hname : name ∈ result.names)
    (cells : Text → Text) : result.cellUnder (result.names.map cells) name = cells name := by
  have hzip : ∀ names : List Text, name ∈ names →
      Assoc.get? name (names.zip (names.map cells)) = some (cells name) := by
    intro names
    induction names with
    | nil => exact fun hmem => absurd hmem List.not_mem_nil
    | cons other rest ih =>
        intro hmem
        rw [List.map_cons, List.zip_cons_cons, Assoc.get?]
        by_cases hother : other = name
        · rw [if_pos hother, hother]
        · rw [if_neg hother]
          exact ih ((List.mem_cons.1 hmem).resolve_left (Ne.symm hother))
  rw [cellUnder, hzip _ hname]
  rfl

end ResultSet

/-! ## Requested columns -/

def AttributeSet.spelling? (set : AttributeSet) (key : Text) : Option Text :=
  set.names.find? fun name => name.lower = key

namespace Columns

def requested : Columns → List Text
  | .all => []
  | .named names => names

/-- The attributes of a table that a selection shows: all of them, or those requested, of
which each appears once, as it is spelled in the table. -/
def spelled (attributes : AttributeSet) : Columns → List Text
  | .all => attributes.names
  | .named names => (names.map Text.lower).eraseDups.filterMap attributes.spelling?

end Columns

theorem AttributeSet.exists_spelling {set : AttributeSet} {name : Text}
    (h : set.contains name = true) :
    ∃ spelled, set.spelling? name.lower = some spelled ∧ set.canonical name = .ok spelled := by
  obtain ⟨other, hother, hlower⟩ := List.mem_map.1 ((contains_iff set name).1 h)
  cases hfind : set.spelling? name.lower with
  | none =>
      have hnone := List.find?_eq_none.1 hfind other hother
      simp [hlower] at hnone
  | some spelled =>
      rw [spelling?] at hfind
      exact ⟨spelled, rfl, by rw [canonical, hfind]⟩

namespace Table

variable {table : Table} {attributes : AttributeSet} {columns : Columns} {condition : Condition}

theorem resolveNames_eq {seen names : List Text}
    (hnames : ∀ name ∈ names, attributes.contains name = true) :
    resolveNames attributes seen names =
      .ok (((names.map Text.lower).filter fun key => !seen.contains key).eraseDups.filterMap
        attributes.spelling?) := by
  induction names generalizing seen with
  | nil => rfl
  | cons name rest ih =>
      obtain ⟨hname, hrest⟩ := List.forall_mem_cons.1 hnames
      have hknown : ¬ (!attributes.contains name) = true := by simp [hname]
      rw [resolveNames, if_neg hknown, List.map_cons, List.filter_cons]
      by_cases hseen : seen.contains name.lower = true
      · rw [if_pos hseen, hseen]
        exact ih hrest
      · obtain ⟨spelled, hfind, hspelled⟩ := AttributeSet.exists_spelling hname
        have hfilter : ((rest.map Text.lower).filter fun key => !seen.contains key).filter
            (fun key => !key == name.lower) =
              (rest.map Text.lower).filter fun key => !(name.lower :: seen).contains key := by
          rw [List.filter_filter]
          refine List.filter_congr fun key _ => ?_
          rw [List.contains_cons, Bool.not_or]
        rw [if_neg hseen, hspelled, Bool.eq_false_iff.2 hseen, Bool.not_false, if_pos rfl,
          List.eraseDups_cons, hfilter, List.filterMap_cons_some hfind, ih hrest]
        rfl

theorem resolve_eq (hcolumns : ∀ name ∈ columns.requested, attributes.contains name = true) :
    resolve attributes columns = .ok (columns.spelled attributes) := by
  cases columns with
  | all => rfl
  | named names =>
      have hall : (names.map Text.lower).filter (fun key => !([] : List Text).contains key) =
          names.map Text.lower := List.filter_eq_self.2 fun _ _ => rfl
      rw [resolve, resolveNames_eq (show ∀ name ∈ names, _ from hcolumns), hall, Columns.spelled]

theorem mem_names_of_mem_spelled {name : Text} (h : name ∈ columns.spelled attributes) :
    name ∈ attributes.names := by
  cases columns with
  | all => exact h
  | named names =>
      obtain ⟨key, _, hfind⟩ := List.mem_filterMap.1 h
      exact List.mem_of_find?_eq_some hfind

/-! ## The whole table -/

theorem row_eq_map (names : List Text) (record : Record) :
    row (names.map Text.lower) record =
      names.map fun name => (record.get? name.lower).getD [] :=
  List.map_map ..

theorem zip_ids_whole (table : Table) :
    table.ids.zip table.whole.rows = table.records.entries.map fun entry =>
      (entry.1, row (table.attributes.names.map Text.lower) entry.2) :=
  List.zip_map' ..

theorem exists_of_mem_zip {id : Int} {cells : List Text}
    (h : (id, cells) ∈ table.ids.zip table.whole.rows) :
    ∃ record, table.records.get? id = some record ∧
      cells = row (table.whole.names.map Text.lower) record := by
  rw [zip_ids_whole] at h
  obtain ⟨entry, hentry, heq⟩ := List.mem_map.1 h
  cases heq
  exact ⟨entry.2, SortedMap.get?_eq_some_iff.2 hentry, rfl⟩

theorem length_rows_whole (table : Table) : table.whole.rows.length = table.ids.length := by
  rw [whole, rows, ids, SortedMap.keys, Assoc.keys, List.length_map, List.length_map]

theorem restrict_whole {keep : Int → Bool} {test : Record → Bool}
    (h : ∀ id record, table.records.get? id = some record → keep id = test record) :
    table.whole.restrict table.ids keep =
      ⟨table.attributes.names, table.rowsWhere test table.attributes.names⟩ := by
  have hkeep : table.records.entries.filter (fun entry => keep entry.1) =
      table.records.entries.filter fun entry => test entry.2 :=
    List.filter_congr fun entry hentry => h _ _ (SortedMap.get?_eq_some_iff.2 hentry)
  rw [ResultSet.restrict, zip_ids_whole, List.filter_map, List.map_map, rowsWhere, ← hkeep]
  rfl

theorem project_rowsWhere {names : List Text} (hnames : ∀ name ∈ names, name ∈ attributes.names)
    (test : Record → Bool) :
    (ResultSet.mk attributes.names (table.rowsWhere test attributes.names)).project names =
      ⟨names, table.rowsWhere test names⟩ := by
  rw [ResultSet.project, rowsWhere, rowsWhere, List.map_map]
  refine congrArg (ResultSet.mk names) (List.map_congr_left fun entry _ => ?_)
  rw [Function.comp_apply, row_eq_map, row_eq_map]
  exact List.map_congr_left fun name hname => ResultSet.cellUnder_map (hnames name hname) _

/-! ## Selecting and deleting -/

def selectedIds (table : Table) (condition : Condition) : List Int :=
  table.idsWhere fun record => condition.eval (table.satisfies record)

theorem mem_selectedIds {id : Int} {record : Record} (hrecord : table.records.get? id = some record) :
    id ∈ table.selectedIds condition ↔ condition.eval (table.satisfies record) = true := by
  rw [selectedIds, mem_idsWhere, hrecord]
  simp

theorem whereTrue_eq_restrict (table : Table) (condition : Condition) :
    table.whereTrue condition =
      table.whole.restrict table.ids fun id => id ∈ table.selectedIds condition := by
  symm
  apply restrict_whole
  intro id record hrecord
  rw [Bool.eq_iff_iff, decide_eq_true_iff, mem_selectedIds hrecord]

/-- What a deletion leaves are the rows that a selection does not show. -/
theorem whole_remainder (table : Table) (condition : Condition) :
    (table.remainder condition).whole =
      table.whole.restrict table.ids fun id => id ∉ table.selectedIds condition := by
  have hrows : (table.remainder condition).whole = ⟨table.attributes.names, table.rowsWhere
      (fun record => !condition.eval (table.satisfies record)) table.attributes.names⟩ := rfl
  rw [hrows]
  symm
  apply restrict_whole
  intro id record hrecord
  rw [decide_not, Bool.not_inj_iff, Bool.eq_iff_iff, decide_eq_true_iff, mem_selectedIds hrecord]

theorem get?_remainder (table : Table) (condition : Condition) (id : Int) :
    (table.remainder condition).records.get? id =
      if id ∈ table.selectedIds condition then none else table.records.get? id := by
  have hrecords : (table.remainder condition).records =
      table.records.filter fun id _ => !(table.selectedIds condition).contains id :=
    (table.filter_idsWhere fun record => condition.eval (table.satisfies record)).symm
  rw [hrecords, SortedMap.get?_filter table.records fun id =>
    !(table.selectedIds condition).contains id]
  by_cases hid : id ∈ table.selectedIds condition <;> simp [hid]

/-- A selection shows the requested columns of the rows that the condition selects. -/
theorem IsTotal.answer_eq (h : table.IsTotal) (hknown : table.firstUnknown? condition = none)
    (hcolumns : ∀ name ∈ columns.requested, table.attributes.contains name = true) :
    table.answer columns (some condition) =
      .ok ((table.whereTrue condition).project (columns.spelled table.attributes)) := by
  rw [whereTrue, project_rowsWhere fun _ => mem_names_of_mem_spelled]
  simp only [answer, resolve_eq hcolumns, h.select_eq, hknown, bind, Except.bind, pure,
    Except.pure, rowsOf_idsWhere]

end Table

end Relbase
