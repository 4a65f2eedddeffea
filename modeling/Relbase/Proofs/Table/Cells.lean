import Relbase.Proofs.Table.Calls
import Relbase.Proofs.Table.Selecting

/-!
# Cells of records

A record has no cells but those of attributes.  Whether it has all of them depends on how it
came about: an insertion fills every attribute, a record that is added has the cells that the
call names and no others, and what is missing can then not be read.  No other call takes a
cell of an attribute away, and an attribute that is added is filled in every record.
-/

namespace Relbase

open Relbase.Action

namespace Table

variable {table later : Table}

/-! ## Cells that are missing -/

def IsConfined (table : Table) : Prop :=
  ∀ id record, table.records.get? id = some record → ∀ column,
    (record.get? column).isSome = true → column ∈ table.columns

def Lacks (table : Table) (id : Int) (column : Text) : Prop :=
  ∃ record, table.records.get? id = some record ∧ column ∈ table.columns ∧
    record.get? column = none

def IsFilled (table : Table) : Prop :=
  ∀ id record, table.records.get? id = some record → ∀ column,
    column ∈ record.keys ↔ column ∈ table.columns

structure IsReadable (table : Table) : Prop where
  values : ∀ name, table.attributes.contains name = true →
    ∃ cells, table.values name = .ok cells
  select : ∀ condition : Condition,
    (∀ comparison ∈ condition.leaves, table.attributes.contains comparison.column = true) →
      ∃ ids, table.select condition = .ok ids

theorem isFilled_iff : table.IsFilled ↔ table.IsConfined ∧ ∀ id column, ¬ table.Lacks id column := by
  have hkeys (record : Record) (column : Text) :
      column ∈ record.keys ↔ (record.get? column).isSome = true := Assoc.isSome_get?_iff.symm
  constructor
  · intro h
    refine ⟨fun id record hrecord column hcell => (h id record hrecord column).1 ?_, ?_⟩
    · exact (hkeys record column).2 hcell
    · rintro id column ⟨record, hrecord, hcolumn, hnone⟩
      have hcell := (hkeys record column).1 ((h id record hrecord column).2 hcolumn)
      simp [hnone] at hcell
  · rintro ⟨hconfined, hlacks⟩ id record hrecord column
    rw [hkeys]
    refine ⟨hconfined id record hrecord column, fun hcolumn => ?_⟩
    apply Option.isSome_iff_ne_none.2
    exact fun hnone => hlacks id column ⟨record, hrecord, hcolumn, hnone⟩

theorem IsFilled.isTotal (h : table.IsFilled) : table.IsTotal := by
  intro entry hentry column hcolumn
  have hrecord := SortedMap.get?_eq_some_iff.2 hentry
  exact Assoc.isSome_get?_iff.2 ((h entry.1 entry.2 hrecord column).2 hcolumn)

theorem IsFilled.isReadable (h : table.IsFilled) : table.IsReadable where
  values name hname := ⟨table.columnCells name, h.isTotal.values_eq hname⟩
  select condition hcolumns := by
    rw [h.isTotal.select_eq, firstUnknown?_eq_none.2 hcolumns]
    exact ⟨_, rfl⟩

theorem IsReadable.not_lacks (h : table.IsReadable) (id : Int) (column : Text) :
    ¬ table.Lacks id column := by
  rintro ⟨record, hrecord, hcolumn, hnone⟩
  obtain ⟨name, hname, rfl⟩ := List.mem_map.1 hcolumn
  obtain ⟨cells, hcells⟩ := h.values name ((AttributeSet.contains_iff _ _).2 hcolumn)
  have hcell := hasCells_of_values hcells (id, record) (SortedMap.get?_eq_some_iff.1 hrecord)
  simp [hnone] at hcell

theorem IsConfined.isFilled_iff (h : table.IsConfined) : table.IsFilled ↔ table.IsReadable :=
  ⟨IsFilled.isReadable, fun hreadable => Table.isFilled_iff.2 ⟨h, hreadable.not_lacks⟩⟩

/-! ## What calls do to cells -/

/-- The cells that a call leaves out of the record whose id it returns. -/
def LeftOut (table : Table) (call : Call) (returned : Option Int) (id : Int) (column : Text) : Prop :=
  ∃ cells, call = .addRecord cells ∧ returned = some id ∧ column ∈ table.columns ∧
    column ≠ idName ∧ column ∉ cells.map fun entry => entry.1.lower

def LeavesOut (table : Table) (call : Call) : Int → Text → Prop :=
  table.LeftOut call (table.returnedId? call)

/-- What one call does to cells: none stands outside the attributes, and what is missing was
missing before or is left out. -/
structure Fills (table later : Table) (left : Int → Text → Prop) : Prop where
  confined : table.IsConfined → later.IsConfined
  lacks : ∀ id column, later.Lacks id column → table.Lacks id column ∨ left id column
  gaps : ∀ id column, left id column → later.Lacks id column

abbrev FillsAll (table later : Table) : Prop :=
  table.Fills later fun _ _ => False

/-- Nothing is left out if each record comes from one and, for every column, either has a cell
just if the column is an attribute or stands as it did. -/
theorem FillsAll.of_records
    (hrecords : ∀ id record, later.records.get? id = some record →
      ∃ old, table.records.get? id = some old ∧ ∀ column,
        ((record.get? column).isSome = true ↔ column ∈ later.columns) ∨
          (record.get? column).isSome = (old.get? column).isSome ∧
            (column ∈ later.columns ↔ column ∈ table.columns)) : table.FillsAll later where
  confined h id record hrecord column hcell := by
    obtain ⟨old, hold, hcolumns⟩ := hrecords id record hrecord
    obtain hright | ⟨hsame, hmem⟩ := hcolumns column
    · exact hright.1 hcell
    · exact hmem.2 (h id old hold column (hsame ▸ hcell))
  lacks id column := by
    rintro ⟨record, hrecord, hcolumn, hnone⟩
    obtain ⟨old, hold, hcolumns⟩ := hrecords id record hrecord
    obtain hright | ⟨hsame, hmem⟩ := hcolumns column
    · exact absurd hnone (Option.isSome_iff_ne_none.1 (hright.2 hcolumn))
    · exact .inl ⟨old, hold, hmem.1 hcolumn, by simpa [hnone] using hsame.symm⟩
  gaps _ _ hleft := hleft.elim

theorem FillsAll.of_subset (hcolumns : later.columns = table.columns)
    (hrecords : ∀ id record, later.records.get? id = some record →
      table.records.get? id = some record) : table.FillsAll later :=
  .of_records fun id record hrecord => ⟨record, hrecords id record hrecord,
    fun column => .inr ⟨rfl, by rw [hcolumns]⟩⟩

theorem FillsAll.refl (table : Table) : table.FillsAll table :=
  .of_subset rfl fun _ _ hrecord => hrecord

theorem FillsAll.trans {middle : Table} (h : table.FillsAll middle)
    (hlater : middle.FillsAll later) : table.FillsAll later where
  confined hconfined := hlater.confined (h.confined hconfined)
  lacks id column hlacks := by
    obtain hmiddle | hleft := hlater.lacks id column hlacks
    · exact h.lacks id column hmiddle
    · exact hleft.elim
  gaps _ _ hleft := hleft.elim

theorem fillsAll_advanced (table : Table) : table.FillsAll table.advanced :=
  .of_subset rfl fun _ _ hrecord => hrecord

theorem fills_extended {record : Record} {left : Int → Text → Prop}
    (hkeys : ∀ column, (record.get? column).isSome = true → column ∈ table.columns)
    (hleft : ∀ id column, left id column ↔ id = table.schema.nextId ∧ column ∈ table.columns ∧
      record.get? column = none) : table.Fills (table.extended record) left where
  confined h id found hfound := by
    rw [get?_extended] at hfound
    split at hfound
    · cases hfound
      exact hkeys
    · exact h id found hfound
  lacks id column := by
    rintro ⟨found, hfound, hcolumn, hnone⟩
    rw [get?_extended] at hfound
    split at hfound
    · rename_i hid
      cases hfound
      exact .inr ((hleft id column).2 ⟨hid.symm, hcolumn, hnone⟩)
    · exact .inl ⟨found, hfound, hcolumn, hnone⟩
  gaps id column hgap := by
    obtain ⟨rfl, hcolumn, hnone⟩ := (hleft id column).1 hgap
    exact ⟨record, by rw [get?_extended, if_pos rfl], hcolumn, hnone⟩

def KeepsCells {α : Type} (table : Table) (action : Action Table α) : Prop :=
  action.Ensures table (fun _ later => table.FillsAll later) fun _ later => table.FillsAll later

theorem KeepsCells.ensures_map {α : Type} {action : Action Table α} (h : table.KeepsCells action)
    (f : α → Option Int) {left : Option Int → Int → Text → Prop}
    (hleft : ∀ returned id column, ¬ left returned id column) :
    (f <$> action : Action Table (Option Int)).Ensures table
      (fun returned later => table.Fills later (left returned))
        fun _ later => table.FillsAll later := by
  have hnone (returned : Option Int) : left returned = fun _ _ => False := by
    funext id column
    exact eq_false (hleft returned id column)
  simp only [hnone, Action.ensures_map]
  exact h

theorem keepsCells_addAttribute (table : Table) (name : Text) :
    table.KeepsCells (addAttribute name) := by
  refine (ensures_addAttribute table name).mono (fun _ later hadded => ?_)
    fun _ _ hfailed => hfailed.2 ▸ .refl table
  obtain ⟨attributes, hadd, rfl⟩ := hadded
  have hcolumns : attributes.keys = table.columns ++ [name.lower] := AttributeSet.keys_of_add hadd
  refine .of_records fun id record hrecord => ?_
  obtain ⟨old, hold, rfl⟩ := exists_of_restructured hrecord
  refine ⟨old, hold, fun column => ?_⟩
  change (_ ↔ column ∈ attributes.keys) ∨ _ ∧ (column ∈ attributes.keys ↔ _)
  rw [hcolumns, SortedMap.get?_insert]
  by_cases hcolumn : name.lower = column
  · simp [hcolumn]
  · simp [hcolumn, Ne.symm hcolumn]

theorem keepsCells_dropAttribute (table : Table) (name : Text) :
    table.KeepsCells (dropAttribute name) := by
  refine (ensures_dropAttribute table name).mono (fun _ later hdropped => ?_)
    fun _ _ hfailed => hfailed.2 ▸ .refl table
  obtain ⟨-, rfl⟩ := hdropped
  refine .of_records fun id record hrecord => ?_
  obtain ⟨old, hold, rfl⟩ := exists_of_restructured hrecord
  refine ⟨old, hold, fun column => ?_⟩
  change (_ ↔ column ∈ (table.attributes.erase name).keys) ∨
    _ ∧ (column ∈ (table.attributes.erase name).keys ↔ _)
  rw [AttributeSet.keys_erase, SortedMap.get?_erase]
  by_cases hcolumn : name.lower = column
  · simp [hcolumn]
  · simp [hcolumn, Ne.symm hcolumn, columns]

theorem FillsAll.assigns {middle : Table} (h : table.FillsAll middle)
    (hassigns : middle.Assigns later) : table.FillsAll later := by
  obtain ⟨id, record, name, value, hrecord, -, hname, rfl⟩ := hassigns
  refine h.trans (.of_records fun other found hfound => ?_)
  rw [SortedMap.get?_insert] at hfound
  split at hfound
  · rename_i hother
    cases hfound
    refine ⟨record, hother ▸ hrecord, fun column => ?_⟩
    rw [SortedMap.get?_insert]
    by_cases hcolumn : name.lower = column
    · exact .inl (by simpa [hcolumn] using hcolumn ▸ hname)
    · exact .inr ⟨by rw [if_neg hcolumn], Iff.rfl⟩
  · exact ⟨found, hfound, fun _ => .inr ⟨rfl, Iff.rfl⟩⟩

theorem keepsCells_updateRecord (table : Table) (id : Int) (assignments : List (Text × Text)) :
    table.KeepsCells (updateRecord id assignments) :=
  (ensures_updateRecord (fun _ _ hbefore => hbefore.assigns) (.refl table) id assignments).mono
    (fun _ _ hlater => hlater) fun _ _ hfailed => hfailed.2

theorem keepsCells_deleteRecords (table : Table) (ids : List Int) :
    table.KeepsCells (deleteRecords ids) := by
  refine (ensures_deleteRecords table ids).mono (fun _ later hdeleted => ?_)
    fun _ _ hfailed => hfailed.elim
  obtain ⟨hschema, hrecords⟩ := hdeleted
  exact .of_subset (congrArg (·.attributes.keys) hschema) hrecords

theorem IsNumbered.keepsCells_insert (h : table.IsNumbered) (values : List Text) :
    table.KeepsCells (insert values) := by
  refine (ensures_insert table values).mono (fun id later hinserted => ?_) fun _ later hfailed => ?_
  · obtain ⟨-, -, hlength, rfl⟩ := hinserted
    obtain ⟨rest, hcolumns⟩ := h.columns_eq
    have hkeys (column : Text) :
        ((table.nextRecord values).get? column).isSome = true ↔ column ∈ table.columns := by
      rw [hcolumns] at hlength
      have hzip : Assoc.keys (rest.zip values) = rest := Assoc.keys_zip (Nat.le_of_eq hlength.symm)
      rw [nextRecord, hcolumns, SortedMap.isSome_get?_ofList, Assoc.keys, List.map_cons,
        ← Assoc.keys, List.drop_one, List.tail_cons, hzip]
    refine fills_extended (fun column => (hkeys column).1) fun id column => ?_
    refine ⟨False.elim, ?_⟩
    rintro ⟨-, hcolumn, hnone⟩
    exact Option.isSome_iff_ne_none.1 ((hkeys column).2 hcolumn) hnone
  · rcases hfailed with ⟨-, rfl⟩ | ⟨-, -, rfl⟩
    · exact .refl later
    · exact table.fillsAll_advanced

theorem keepsCells_allocateId (table : Table) : table.KeepsCells allocateId :=
  table.fillsAll_advanced

theorem isSome_get?_numbered (id : Int) (cells : List (Text × Text)) (column : Text) :
    ((numbered id cells).get? column).isSome = true ↔
      column = idName ∨ column ∈ cells.map fun entry => entry.1.lower := by
  rw [numbered, SortedMap.isSome_get?_insert, SortedMap.isSome_get?_ofList, Assoc.keys,
    List.map_map]
  rfl

theorem IsNumbered.fills_addRecord (h : table.IsNumbered) (cells : List (Text × Text)) :
    (addRecord cells).Ensures table
      (fun id later => table.Fills later (table.LeftOut (.addRecord cells) (some id)))
      fun _ later => table.FillsAll later := by
  refine (ensures_addRecord table cells).mono (fun id later hadded => ?_) fun _ later hfailed => ?_
  · obtain ⟨rfl, hnamed, rfl⟩ := hadded
    refine fills_extended (fun column hcell => ?_) fun other column => ?_
    · obtain rfl | hcolumn := (isSome_get?_numbered _ cells column).1 hcell
      · exact h.idName_mem
      · obtain ⟨entry, hentry, rfl⟩ := List.mem_map.1 hcolumn
        exact hnamed entry hentry
    · rw [← Option.not_isSome_iff_eq_none, isSome_get?_numbered, not_or]
      simp [LeftOut, eq_comm]
  · rcases hfailed with rfl | rfl
    · exact .refl later
    · exact table.fillsAll_advanced

/-! ## Sequences of calls -/

theorem not_leftOut {call : Call} (hcall : ∀ cells, call ≠ .addRecord cells)
    (returned : Option Int) (id : Int) (column : Text) :
    ¬ table.LeftOut call returned id column := by
  rintro ⟨cells, hadd, -⟩
  exact hcall cells hadd

theorem IsNumbered.ensures_fills (h : table.IsNumbered) (call : Call) :
    call.run.Ensures table (fun returned later => table.Fills later (table.LeftOut call returned))
      fun _ later => table.FillsAll later := by
  cases call with
  | insert values => exact (h.keepsCells_insert values).ensures_map _ (not_leftOut (by simp))
  | addRecord cells =>
      rw [Call.run, Action.ensures_map]
      exact h.fills_addRecord cells
  | updateRecord id assignments =>
      exact (table.keepsCells_updateRecord id assignments).ensures_map _ (not_leftOut (by simp))
  | deleteRecords ids => exact (table.keepsCells_deleteRecords ids).ensures_map _ (not_leftOut (by simp))
  | addAttribute name => exact (table.keepsCells_addAttribute name).ensures_map _ (not_leftOut (by simp))
  | dropAttribute name => exact (table.keepsCells_dropAttribute name).ensures_map _ (not_leftOut (by simp))
  | allocateId => exact table.keepsCells_allocateId.ensures_map _ (not_leftOut (by simp))

theorem IsNumbered.fills_next (h : table.IsNumbered) (call : Call) :
    table.Fills (table.next call) (table.LeavesOut call) := by
  have hrun := h.ensures_fills call
  rw [Ensures] at hrun
  rw [next, LeavesOut, returnedId?]
  split at hrun
  · rename_i heq
    rw [heq]
    exact hrun
  · rename_i heq
    have hnone : table.LeftOut call none = fun _ _ => False := by
      funext id column
      simp [LeftOut]
    rw [heq]
    exact hnone ▸ hrun

theorem afterCalls_concat (table : Table) (calls : List Call) (call : Call) :
    table.afterCalls (calls ++ [call]) = (table.afterCalls calls).next call :=
  List.foldl_append

theorem IsNumbered.fills_afterCalls (h : table.IsNumbered) (calls : List Call) (call : Call) :
    (table.afterCalls calls).Fills (table.afterCalls (calls ++ [call]))
      ((table.afterCalls calls).LeavesOut call) := by
  rw [afterCalls_concat]
  exact (h.advances_afterCalls calls).1.fills_next call

theorem IsNumbered.exists_leavesOut (h : table.IsNumbered) (hfilled : table.IsFilled)
    (calls : List Call) :
    (table.afterCalls calls).IsConfined ∧ ∀ id column, (table.afterCalls calls).Lacks id column →
      ∃ front call, front ++ [call] <+: calls ∧
        (table.afterCalls front).LeavesOut call id column := by
  obtain ⟨hconfined, hlacks⟩ := isFilled_iff.1 hfilled
  -- A gap after the last call was there before it, or is of the last call.
  induction calls using List.reverseRecOn with
  | nil => exact ⟨hconfined, fun id column hgap => absurd hgap (hlacks id column)⟩
  | append_singleton calls last ih =>
      have hfills := h.fills_afterCalls calls last
      refine ⟨hfills.confined ih.1, fun id column hgap => ?_⟩
      obtain hbefore | hleft := hfills.lacks id column hgap
      · obtain ⟨front, call, hprefix, hleft⟩ := ih.2 id column hbefore
        exact ⟨front, call, hprefix.trans (List.prefix_append _ _), hleft⟩
      · exact ⟨calls, last, List.prefix_rfl, hleft⟩

/-- However a table is called that starts empty, its records have no cells but those of
attributes, and it can be read just where they have all of them.  A cell is missing only because
the call that added the record did not name it, so all records are filled all the time if and
only if no call leaves a cell out. -/
theorem isFilled_iff_leavesOut {schema : Schema} (hkey : schema.primaryKey = .text idName)
    (hfirst : ∃ first rest, schema.attributes.names = first :: rest ∧ first.lower = idName)
    (calls : List Call) :
    ((ofSchema schema).afterCalls calls).IsConfined ∧
      (((ofSchema schema).afterCalls calls).IsFilled ↔
        ((ofSchema schema).afterCalls calls).IsReadable) ∧
      (∀ id column, ((ofSchema schema).afterCalls calls).Lacks id column →
        ∃ front call, front ++ [call] <+: calls ∧
          ((ofSchema schema).afterCalls front).LeavesOut call id column) ∧
      ((∀ front, front <+: calls → ((ofSchema schema).afterCalls front).IsFilled ∧
          ((ofSchema schema).afterCalls front).IsReadable) ↔
        ∀ front call, front ++ [call] <+: calls → ∀ id column,
          ¬ ((ofSchema schema).afterCalls front).LeavesOut call id column) := by
  have hnumbered := isNumbered_ofSchema hkey hfirst
  have hempty : (ofSchema schema).IsFilled := fun _ _ hrecord => by cases hrecord
  have hcells := hnumbered.exists_leavesOut hempty
  refine ⟨(hcells calls).1, (hcells calls).1.isFilled_iff, (hcells calls).2, ?_, ?_⟩
  · intro hfilled front call hprefix id column hleft
    have hgap := (hnumbered.fills_afterCalls front call).gaps id column hleft
    exact (isFilled_iff.1 (hfilled _ hprefix).1).2 id column hgap
  · intro hleft front hprefix
    have hfilled : ((ofSchema schema).afterCalls front).IsFilled := by
      refine isFilled_iff.2 ⟨(hcells front).1, fun id column hgap => ?_⟩
      obtain ⟨before, call, hbefore, hcell⟩ := (hcells front).2 id column hgap
      exact hleft before call (hbefore.trans hprefix) id column hcell
    exact ⟨hfilled, hfilled.isReadable⟩

def fillingCalls : List Call :=
  [.addRecord [(['A'], ['x'])], .addAttribute ['b'], .insert [['y'], ['z']], .insert [],
    .updateRecord 1 [(['B'], ['w']), ("id".toList, ['7'])], .dropAttribute ['a'], .deleteRecords [2]]

theorem isFilled_fillingCalls :
    (capitalized.afterCalls fillingCalls).IsFilled ∧
      (capitalized.afterCalls fillingCalls).IsReadable ∧
      (capitalized.afterCalls fillingCalls).values ['B'] = .ok [['w']] := by
  have hcells := (@isFilled_iff_leavesOut capitalized.schema rfl
    ⟨"ID".toList, [['a']], rfl, by decide +kernel⟩ fillingCalls).2.2.2
  have hleft : ∀ front call, front ++ [call] <+: fillingCalls → ∀ id column,
      ¬ (capitalized.afterCalls front).LeavesOut call id column := by
    rintro front _ hprefix id column ⟨cells, rfl, -, hcolumn, hid, hcell⟩
    -- Only the first call adds a record by names.
    cases front with
    | nil =>
        have hcells : cells = [(['A'], ['x'])] := by simpa [fillingCalls] using hprefix
        have hcolumns : capitalized.columns = [idName, ['a']] := by decide +kernel
        have hlower : Text.lower ['A'] = ['a'] := by decide +kernel
        change column ∈ capitalized.columns at hcolumn
        simp_all
    | cons first rest =>
        have hmem := (List.cons_prefix_cons.1 hprefix).2.subset (List.mem_concat_self ..)
        simp at hmem
  obtain ⟨hfilled, hreadable⟩ := hcells.2 hleft fillingCalls List.prefix_rfl
  exact ⟨hfilled, hreadable, by decide +kernel⟩

def partialRecord : Table :=
  (ofSchema (.fresh ['T'] ⟨[idName, "name".toList, "age".toList], by decide +kernel⟩)).afterCalls
    [.addRecord [("name".toList, "Dan".toList)]]

/-- A record that is not added whole cannot be read, nor decided upon. -/
theorem partialRecord_not_isFilled :
    ¬ partialRecord.IsFilled ∧
      partialRecord.attributes.contains "age".toList = true ∧
      partialRecord.values "age".toList = .error (.missingCell "age".toList) ∧
      partialRecord.select (.leaf ⟨"age".toList, .equal, []⟩) =
        .error (.unforeseen (.missingCell "age".toList)) := by
  have hvalues : partialRecord.values "age".toList = .error (.missingCell "age".toList) := by
    decide +kernel
  have hname : partialRecord.attributes.contains "age".toList = true := by decide +kernel
  refine ⟨fun hfilled => ?_, hname, hvalues, ?_⟩
  · obtain ⟨cells, hcells⟩ := hfilled.isReadable.values _ hname
    rw [hvalues] at hcells
    cases hcells
  · have hsatisfying : partialRecord.satisfying ⟨"age".toList, .equal, []⟩ =
        .error (.unforeseen (.missingCell "age".toList)) := by
      rw [satisfying, hname, hvalues]
      rfl
    rw [select, Formula.select, hsatisfying]

end Table

end Relbase
