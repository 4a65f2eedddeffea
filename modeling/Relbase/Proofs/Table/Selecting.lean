import Mathlib.Data.List.Sort
import Relbase.Proofs.Query.Spelling
import Relbase.Proofs.Table.Sound

/-!
# What a condition selects

A comparison is decided for a whole table at once, and connectives put sets of ids together.
The ids are those of the records for which the condition is true when it is decided record
by record, each comparison under the kind of its column.  A comparison with a column that
is not there is reported wherever it stands, and the leftmost one first.
-/

namespace Relbase

/-! ## Sets of ids -/

namespace IdSet

theorem mem_insert {id other : Int} {set : List Int} :
    other ∈ insert id set ↔ other = id ∨ other ∈ set := by
  induction set with
  | nil => simp [insert]
  | cons first rest ih =>
      rw [insert]
      split
      · exact List.mem_cons
      split
      · rename_i heq
        simp [heq]
      · rw [List.mem_cons, ih, List.mem_cons]
        tauto

theorem pairwise_insert {id : Int} {set : List Int} (h : set.Pairwise (· < ·)) :
    (insert id set).Pairwise (· < ·) := by
  induction set with
  | nil => simp [insert]
  | cons first rest ih =>
      obtain ⟨hfirst, hrest⟩ := List.pairwise_cons.1 h
      rw [insert]
      split
      · rename_i hlt
        refine List.pairwise_cons.2 ⟨fun other hother => ?_, h⟩
        rcases List.mem_cons.1 hother with rfl | hother
        · exact hlt
        · exact hlt.trans (hfirst other hother)
      split
      · exact h
      · refine List.pairwise_cons.2 ⟨fun other hother => ?_, ih hrest⟩
        rcases mem_insert.1 hother with rfl | hother
        · omega
        · exact hfirst other hother

theorem mem_union {id : Int} {first second : List Int} :
    id ∈ union first second ↔ id ∈ first ∨ id ∈ second := by
  rw [union]
  induction second generalizing first with
  | nil => simp
  | cons other rest ih =>
      rw [List.foldl_cons, ih, mem_insert, List.mem_cons]
      tauto

theorem pairwise_union {first : List Int} (second : List Int) (h : first.Pairwise (· < ·)) :
    (union first second).Pairwise (· < ·) := by
  rw [union]
  induction second generalizing first with
  | nil => exact h
  | cons other rest ih => exact ih (pairwise_insert h)

theorem mem_inter {id : Int} {first second : List Int} :
    id ∈ inter first second ↔ id ∈ first ∧ id ∈ second := by
  simp [inter]

theorem pairwise_inter {first : List Int} (second : List Int) (h : first.Pairwise (· < ·)) :
    (inter first second).Pairwise (· < ·) :=
  h.sublist List.filter_sublist

end IdSet

/-! ## Conditions and records -/

theorem mapM_eq_ok_map {ε α β : Type} {f : α → Except ε β} {g : α → β} {items : List α}
    (h : ∀ item ∈ items, f item = .ok (g item)) : items.mapM f = .ok (items.map g) := by
  induction items with
  | nil => rfl
  | cons item rest ih =>
      obtain ⟨hitem, hrest⟩ := List.forall_mem_cons.1 h
      rw [List.mapM_cons, hitem, ih hrest]
      rfl

theorem exists_ok_of_mapM {ε α β : Type} {f : α → Except ε β} {items : List α} {results : List β}
    (h : items.mapM f = .ok results) : ∀ item ∈ items, ∃ result, f item = .ok result := by
  induction items generalizing results with
  | nil => simp
  | cons first rest ih =>
      rw [List.mapM_cons] at h
      cases hfirst : f first with
      | error failure => simp [hfirst, bind, Except.bind] at h
      | ok result =>
          cases hrest : rest.mapM f with
          | error failure => simp [hfirst, hrest, bind, Except.bind] at h
          | ok others => exact List.forall_mem_cons.2 ⟨⟨result, hfirst⟩, ih hrest⟩

def Formula.eval {α : Type} (truth : α → Bool) : Formula α → Bool
  | .leaf test => truth test
  | .joined left .and right => left.eval truth && right.eval truth
  | .joined left .or right => left.eval truth || right.eval truth

theorem ValueKind.infer_eq (values : List Text) :
    infer values = ((values.map of).find? (· ≠ .null)).getD .null := by
  induction values with
  | nil => rfl
  | cons value rest ih =>
      rw [infer, List.map_cons, List.find?_cons]
      by_cases h : of value = .null
      · simp [h, ih]
      · simp [h]

namespace Table

variable {table : Table}

/-- Every record has a cell for every column. -/
def IsTotal (table : Table) : Prop :=
  ∀ entry ∈ table.records.entries, ∀ column ∈ table.columns, (entry.2.get? column).isSome = true

instance (table : Table) : Decidable table.IsTotal :=
  inferInstanceAs (Decidable (∀ entry ∈ table.records.entries, ∀ column ∈ table.columns, _))

theorem IsSound.isTotal {key : Text} (h : table.IsSound key) : table.IsTotal := by
  intro entry hentry column hcolumn
  exact ((h.records _ _ (SortedMap.get?_eq_some_iff.2 hentry)).isSome_iff column).2 hcolumn

def columnCells (table : Table) (name : Text) : List Text :=
  table.records.entries.map fun entry => (entry.2.get? name.lower).getD []

/-- The kind of the first cell of a column that is not null. -/
def columnKind (table : Table) (name : Text) : ValueKind :=
  (((table.columnCells name).map ValueKind.of).find? (· ≠ .null)).getD .null

def satisfies (table : Table) (record : Record) (comparison : Comparison) : Bool :=
  comparison.comparator.holds (table.columnKind comparison.column)
    ((record.get? comparison.column.lower).getD []) comparison.literal

def idsWhere (table : Table) (test : Record → Bool) : List Int :=
  (table.records.entries.filter fun entry => test entry.2).map Prod.fst

theorem mem_idsWhere {test : Record → Bool} {id : Int} :
    id ∈ table.idsWhere test ↔
      ∃ record, table.records.get? id = some record ∧ test record = true := by
  simp [idsWhere, SortedMap.get?_eq_some_iff]

theorem pairwise_keys (table : Table) : (table.records.entries.map Prod.fst).Pairwise (· < ·) :=
  List.pairwise_map.2 (table.records.ascending.imp fun h => Int.compare_eq_lt.1 h)

theorem pairwise_idsWhere (table : Table) (test : Record → Bool) :
    (table.idsWhere test).Pairwise (· < ·) :=
  table.pairwise_keys.sublist (List.filter_sublist.map _)

theorem inter_idsWhere (table : Table) (first second : Record → Bool) :
    IdSet.inter (table.idsWhere first) (table.idsWhere second) =
      table.idsWhere fun record => first record && second record := by
  refine (IdSet.pairwise_inter _ (table.pairwise_idsWhere _)).eq_of_mem_iff
    (table.pairwise_idsWhere _) fun id => ?_
  simp only [IdSet.mem_inter, mem_idsWhere, Bool.and_eq_true]
  constructor
  · rintro ⟨⟨record, hrecord, hfirst⟩, other, hother, hsecond⟩
    cases hrecord.symm.trans hother
    exact ⟨record, hrecord, hfirst, hsecond⟩
  · rintro ⟨record, hrecord, hfirst, hsecond⟩
    exact ⟨⟨record, hrecord, hfirst⟩, record, hrecord, hsecond⟩

theorem union_idsWhere (table : Table) (first second : Record → Bool) :
    IdSet.union (table.idsWhere first) (table.idsWhere second) =
      table.idsWhere fun record => first record || second record := by
  refine (IdSet.pairwise_union _ (table.pairwise_idsWhere _)).eq_of_mem_iff
    (table.pairwise_idsWhere _) fun id => ?_
  simp only [IdSet.mem_union, mem_idsWhere, Bool.or_eq_true, and_or_left, exists_or]

/-! ## Selecting -/

def HasCells (table : Table) (name : Text) : Prop :=
  ∀ entry ∈ table.records.entries, (entry.2.get? name.lower).isSome = true

theorem HasCells.values_eq {name : Text} (h : table.HasCells name) :
    table.values name = .ok (table.columnCells name) := by
  refine mapM_eq_ok_map fun entry hentry => ?_
  obtain ⟨value, hvalue⟩ := Option.isSome_iff_exists.1 (h entry hentry)
  rw [cell, hvalue]
  rfl

theorem hasCells_of_values {name : Text} {cells : List Text}
    (h : table.values name = .ok cells) : table.HasCells name := by
  intro entry hentry
  obtain ⟨value, hvalue⟩ := exists_ok_of_mapM h entry hentry
  rw [cell] at hvalue
  split at hvalue
  · rename_i hfound
    rw [hfound]
    rfl
  · cases hvalue

theorem IsTotal.hasCells (h : table.IsTotal) {name : Text}
    (hname : table.attributes.contains name = true) : table.HasCells name := fun entry hentry =>
  h entry hentry _ ((AttributeSet.contains_iff _ _).1 hname)

theorem IsTotal.values_eq (h : table.IsTotal) {name : Text}
    (hname : table.attributes.contains name = true) :
    table.values name = .ok (table.columnCells name) :=
  (h.hasCells hname).values_eq

theorem IsTotal.satisfying_eq (h : table.IsTotal) (comparison : Comparison) :
    table.satisfying comparison =
      if table.attributes.contains comparison.column then
        .ok (table.idsWhere fun record => table.satisfies record comparison)
      else .error (.reported (.attributeNotFound comparison.column)) := by
  rw [satisfying]
  cases hname : table.attributes.contains comparison.column with
  | false => rfl
  | true =>
      simp only [h.values_eq hname, ValueKind.infer_eq]
      rfl

/-- The leftmost comparison with a column that a table does not have. -/
def firstUnknown? (table : Table) (condition : Condition) : Option Comparison :=
  condition.leaves.find? fun comparison => !table.attributes.contains comparison.column

theorem firstUnknown?_eq_none {condition : Condition} :
    table.firstUnknown? condition = none ↔
      ∀ comparison ∈ condition.leaves, table.attributes.contains comparison.column = true := by
  simp [firstUnknown?]

theorem firstUnknown?_eq_some {condition : Condition} {comparison : Comparison} :
    table.firstUnknown? condition = some comparison ↔
      ∃ before after, condition.leaves = before ++ comparison :: after ∧
        (∀ other ∈ before, table.attributes.contains other.column = true) ∧
          table.attributes.contains comparison.column = false := by
  rw [firstUnknown?, List.find?_eq_some_iff_append]
  constructor
  · rintro ⟨hunknown, before, after, hleaves, hbefore⟩
    exact ⟨before, after, hleaves, by simpa using hbefore, by simpa using hunknown⟩
  · rintro ⟨before, after, hleaves, hbefore, hunknown⟩
    exact ⟨by simpa using hunknown, before, after, hleaves, by simpa using hbefore⟩

theorem IsTotal.select_eq (h : table.IsTotal) (condition : Condition) :
    table.select condition =
      match table.firstUnknown? condition with
      | some comparison => .error (.reported (.attributeNotFound comparison.column))
      | none => .ok (table.idsWhere fun record => condition.eval (table.satisfies record)) := by
  rw [select, firstUnknown?]
  induction condition with
  | leaf comparison =>
      rw [Formula.select, h.satisfying_eq, Formula.leaves, List.find?_singleton]
      cases table.attributes.contains comparison.column <;> rfl
  | joined left connective right hleft hright =>
      rw [Formula.select, hleft, hright, Formula.leaves, List.find?_append]
      cases left.leaves.find? fun comparison => !table.attributes.contains comparison.column with
      | some comparison => rfl
      | none =>
          cases right.leaves.find? fun comparison => !table.attributes.contains comparison.column with
          | some comparison => rfl
          | none =>
              cases connective with
              | and => exact congrArg Except.ok (table.inter_idsWhere _ _)
              | or => exact congrArg Except.ok (table.union_idsWhere _ _)

/-- A condition fails exactly at its leftmost comparison with a column that is not there,
and otherwise selects exactly the records of which it is true. -/
theorem select_recordwise (h : table.IsTotal) (condition : Condition) :
    (∀ failure, table.select condition = .error failure ↔
      ∃ comparison, failure = .reported (.attributeNotFound comparison.column) ∧
        ∃ before after, condition.leaves = before ++ comparison :: after ∧
          (∀ other ∈ before, table.attributes.contains other.column = true) ∧
            table.attributes.contains comparison.column = false) ∧
    ∀ ids, table.select condition = .ok ids ↔
      (∀ comparison ∈ condition.leaves, table.attributes.contains comparison.column = true) ∧
        ids = table.idsWhere fun record => condition.eval (table.satisfies record) := by
  simp only [← firstUnknown?_eq_some, ← firstUnknown?_eq_none, h.select_eq]
  cases table.firstUnknown? condition with
  | none => simp [eq_comm]
  | some comparison => simp [eq_comm]

def people : Table :=
  ((do
    let _ ← insert ["Alice".toList, "30".toList]
    let _ ← insert ["Bob".toList, "21".toList]
    let _ ← insert ["Dan".toList, []] : Action Table Unit).runOn
      (ofSchema (.fresh "people".toList
        ⟨[idName, "Name".toList, "Age".toList], by decide +kernel⟩))).2

theorem select_recordwise_people :
    people.IsTotal ∧
      people.select (.joined (.leaf ⟨"age".toList, .greater, "25".toList⟩) .or
        (.leaf ⟨"NAME".toList, .notEqual, "Bob".toList⟩)) = .ok [1, 3] ∧
      people.select (.joined (.leaf ⟨"age".toList, .greater, "25".toList⟩) .and
        (.leaf ⟨"email".toList, .equal, []⟩)) =
          .error (.reported (.attributeNotFound "email".toList)) := by
  have htotal : people.IsTotal := by decide +kernel
  refine ⟨htotal, ((select_recordwise htotal _).2 _).2 (by decide +kernel),
    ((select_recordwise htotal _).1 _).2 ⟨⟨"email".toList, .equal, []⟩, rfl, ?_⟩⟩
  exact ⟨[⟨"age".toList, .greater, "25".toList⟩], [], rfl, by decide +kernel, by decide +kernel⟩

end Table

end Relbase
