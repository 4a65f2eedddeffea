import Relbase.Proofs.Table.Appending

/-!
# Calls on a table

Whatever is asked of a table, and whether or not it can be done, its records stay numbered by
a counter that never goes back: a new record gets the id that the counter shows, and no call
writes over an id.  Nothing is assumed about the spelling of attributes.
-/

namespace Relbase

open Relbase.Action

namespace Table

variable {table later : Table}

/-! ## Numbered tables -/

/-- The id is the primary key and the first attribute, the counter is above all ids, and the id
of a record is in its cell. -/
structure IsNumbered (table : Table) : Prop where
  primaryKey : table.schema.primaryKey = .text idName
  firstName : ∃ first rest, table.attributes.names = first :: rest ∧ first.lower = idName
  counted : table.IsCounted
  idCell : ∀ id record, table.records.get? id = some record →
    record.get? idName = some (Text.ofInt id)

theorem IsNumbered.columns_eq (h : table.IsNumbered) : ∃ rest, table.columns = idName :: rest := by
  obtain ⟨first, rest, hnames, hfirst⟩ := h.firstName
  exact ⟨rest.map Text.lower, by rw [columns, AttributeSet.keys, hnames, List.map_cons, hfirst]⟩

theorem IsNumbered.idName_mem (h : table.IsNumbered) : idName ∈ table.columns := by
  obtain ⟨rest, hcolumns⟩ := h.columns_eq
  exact hcolumns ▸ List.mem_cons_self

theorem isNumbered_ofSchema {schema : Schema} (hkey : schema.primaryKey = .text idName)
    (hfirst : ∃ first rest, schema.attributes.names = first :: rest ∧ first.lower = idName) :
    (ofSchema schema).IsNumbered where
  primaryKey := hkey
  firstName := hfirst
  counted _ _ hrecord := by cases hrecord
  idCell _ _ hrecord := by cases hrecord

theorem IsNumbered.of_records (h : table.IsNumbered)
    (hkey : later.schema.primaryKey = table.schema.primaryKey)
    (hfirst : ∃ first rest, later.attributes.names = first :: rest ∧ first.lower = idName)
    (hnext : table.schema.nextId ≤ later.schema.nextId)
    (hrecords : ∀ id record, later.records.get? id = some record →
      ∃ old, table.records.get? id = some old ∧ record.get? idName = old.get? idName) :
    later.IsNumbered where
  primaryKey := hkey.trans h.primaryKey
  firstName := hfirst
  counted id record hrecord := by
    obtain ⟨old, hold, -⟩ := hrecords id record hrecord
    exact Int.lt_of_lt_of_le (h.counted id old hold) hnext
  idCell id record hrecord := by
    obtain ⟨old, hold, hcell⟩ := hrecords id record hrecord
    rw [hcell, h.idCell id old hold]

theorem IsNumbered.advanced (h : table.IsNumbered) : table.advanced.IsNumbered :=
  h.of_records rfl h.firstName (Int.le_add_of_nonneg_right Int.one_nonneg)
    fun _ record hrecord => ⟨record, hrecord, rfl⟩

theorem IsNumbered.extended (h : table.IsNumbered) {record : Record}
    (hrecord : record.get? idName = some (Text.ofInt table.schema.nextId)) :
    (table.extended record).IsNumbered where
  primaryKey := h.primaryKey
  firstName := h.firstName
  counted := h.counted.extended record
  idCell id found hfound := by
    rw [get?_extended] at hfound
    split at hfound
    · rename_i hid
      cases hfound
      exact hid ▸ hrecord
    · exact h.idCell id found hfound

/-! ## New records -/

/-- Where a record is added, it has the next id, and where that fails, no record has changed
but the id may be lost. -/
def Adds (table : Table) (action : Action Table Int) : Prop :=
  action.Ensures table
    (fun id later => id = table.schema.nextId ∧ ∃ record,
      record.get? idName = some (Text.ofInt id) ∧ later = table.extended record)
    fun _ later => later = table ∨ later = table.advanced

theorem IsNumbered.get?_nextRecord (h : table.IsNumbered) {values : List Text}
    (hlength : values.length = (table.columns.drop 1).length) :
    (table.nextRecord values).get? idName = some (Text.ofInt table.schema.nextId) := by
  obtain ⟨rest, hcolumns⟩ := h.columns_eq
  have hdistinct := table.nodup_columns
  rw [hcolumns] at hdistinct hlength
  have hkeys : Assoc.keys (rest.zip values) = rest := Assoc.keys_zip (Nat.le_of_eq hlength.symm)
  have hrecord : (Assoc.keys ((idName, Text.ofInt table.schema.nextId) ::
      rest.zip values)).Nodup := by
    rw [Assoc.keys, List.map_cons, ← Assoc.keys, hkeys]
    exact hdistinct
  rw [nextRecord, hcolumns]
  exact (SortedMap.get?_ofList hrecord idName).trans (if_pos rfl)

theorem IsNumbered.adds_insert (h : table.IsNumbered) (values : List Text) :
    table.Adds (insert values) := by
  refine (ensures_insert table values).mono (fun id later hinserted => ?_) fun _ later hfailed => ?_
  · obtain ⟨rfl, -, hlength, rfl⟩ := hinserted
    exact ⟨rfl, table.nextRecord values, h.get?_nextRecord hlength, rfl⟩
  · rcases hfailed with ⟨-, rfl⟩ | ⟨-, -, rfl⟩
    · exact .inl rfl
    · exact .inr rfl

theorem adds_addRecord (table : Table) (cells : List (Text × Text)) :
    table.Adds (addRecord cells) := by
  refine (ensures_addRecord table cells).mono (fun id later hadded => ?_) fun _ _ hfailed => hfailed
  obtain ⟨rfl, -, rfl⟩ := hadded
  refine ⟨rfl, numbered table.schema.nextId cells, ?_, rfl⟩
  rw [numbered, SortedMap.get?_insert, if_pos rfl]

/-! ## Other calls -/

structure Keeps (table later : Table) : Prop where
  numbered : later.IsNumbered
  nextId : later.schema.nextId = table.schema.nextId

theorem IsNumbered.keeps (h : table.IsNumbered) : table.Keeps table :=
  ⟨h, rfl⟩

theorem IsNumbered.keeps_restructured (h : table.IsNumbered) {attributes : AttributeSet}
    (hfirst : ∃ first rest, attributes.names = first :: rest ∧ first.lower = idName)
    {change : Record → Record} (hchange : ∀ record, (change record).get? idName = record.get? idName) :
    table.Keeps (table.restructured attributes change) := by
  refine ⟨h.of_records rfl hfirst (Int.le_refl _) fun id record hrecord => ?_, rfl⟩
  obtain ⟨old, hold, rfl⟩ := exists_of_restructured hrecord
  exact ⟨old, hold, hchange old⟩

theorem IsNumbered.ensures_addAttribute (h : table.IsNumbered) (name : Text) :
    (addAttribute name).Ensures table (fun _ later => table.Keeps later)
      fun _ later => table.Keeps later := by
  refine (Table.ensures_addAttribute table name).mono (fun _ later hadded => ?_)
    fun _ _ hfailed => hfailed.2 ▸ h.keeps
  obtain ⟨attributes, hadd, rfl⟩ := hadded
  obtain ⟨hnames, hnew⟩ := AttributeSet.names_of_add hadd
  have hid : name.lower ≠ idName := fun heq => hnew (heq ▸ h.idName_mem)
  refine h.keeps_restructured ?_ fun record => ?_
  · obtain ⟨first, rest, hfirst, hlower⟩ := h.firstName
    exact ⟨first, rest ++ [name], hnames.trans (congrArg (· ++ [name]) hfirst), hlower⟩
  · rw [SortedMap.get?_insert, if_neg hid]

theorem IsNumbered.ensures_dropAttribute (h : table.IsNumbered) (name : Text) :
    (dropAttribute name).Ensures table (fun _ later => table.Keeps later)
      fun _ later => table.Keeps later := by
  refine (Table.ensures_dropAttribute table name).mono (fun _ later hdropped => ?_)
    fun _ _ hfailed => hfailed.2 ▸ h.keeps
  obtain ⟨hkey, rfl⟩ := hdropped
  have hid := Schema.ne_idName h.primaryKey hkey
  refine h.keeps_restructured ?_ fun record => ?_
  · obtain ⟨first, rest, hfirst, hlower⟩ := h.firstName
    refine ⟨first, rest.filter fun other => other.lower ≠ name.lower,
      (congrArg (List.filter _) hfirst).trans (List.filter_cons_of_pos ?_), hlower⟩
    simpa [hlower] using Ne.symm hid
  · rw [SortedMap.get?_erase, if_neg hid]

theorem Keeps.assigns {middle : Table} (h : table.Keeps middle) (hassigns : middle.Assigns later) :
    table.Keeps later := by
  obtain ⟨id, record, name, value, hrecord, hkey, -, rfl⟩ := hassigns
  have hid := Schema.ne_idName h.numbered.primaryKey hkey
  refine ⟨h.numbered.of_records rfl h.numbered.firstName (Int.le_refl _) fun other found hfound => ?_,
    h.nextId⟩
  rw [SortedMap.get?_insert] at hfound
  split at hfound
  · rename_i hother
    cases hfound
    exact ⟨record, hother ▸ hrecord, by rw [SortedMap.get?_insert, if_neg hid]⟩
  · exact ⟨found, hfound, rfl⟩

theorem IsNumbered.ensures_updateRecord (h : table.IsNumbered) (id : Int)
    (assignments : List (Text × Text)) :
    (updateRecord id assignments).Ensures table (fun _ later => table.Keeps later)
      fun _ later => table.Keeps later :=
  (Table.ensures_updateRecord (fun _ _ hbefore => hbefore.assigns) h.keeps id assignments).mono
    (fun _ _ hlater => hlater) fun _ _ hfailed => hfailed.2

theorem IsNumbered.ensures_deleteRecords (h : table.IsNumbered) (ids : List Int) :
    (deleteRecords ids).Ensures table (fun _ later => table.Keeps later)
      fun _ later => table.Keeps later := by
  refine (Table.ensures_deleteRecords table ids).mono (fun _ later hdeleted => ?_)
    fun _ _ hfailed => hfailed.elim
  obtain ⟨hschema, hrecords⟩ := hdeleted
  have hfirst : later.attributes.names = table.attributes.names :=
    congrArg (·.attributes.names) hschema
  refine ⟨h.of_records (congrArg (·.primaryKey) hschema) (hfirst ▸ h.firstName) ?_
    fun id record hrecord => ⟨record, hrecords id record hrecord, rfl⟩, congrArg (·.nextId) hschema⟩
  exact Int.le_of_eq (congrArg (·.nextId) hschema).symm

/-! ## Sequences of calls -/

inductive Call where
  | insert (values : List Text)
  | addRecord (cells : List (Text × Text))
  | updateRecord (id : Int) (assignments : List (Text × Text))
  | deleteRecords (ids : List Int)
  | addAttribute (name : Text)
  | dropAttribute (name : Text)
  | allocateId
  deriving DecidableEq, Repr

namespace Call

def run : Call → Action Table (Option Int)
  | .insert values => some <$> Table.insert values
  | .addRecord cells => some <$> Table.addRecord cells
  | .updateRecord id assignments => (fun _ => none) <$> Table.updateRecord id assignments
  | .deleteRecords ids => (fun _ => none) <$> Table.deleteRecords ids
  | .addAttribute name => (fun _ => none) <$> Table.addAttribute name
  | .dropAttribute name => (fun _ => none) <$> Table.dropAttribute name
  | .allocateId => some <$> Table.allocateId

def isAddition : Call → Bool
  | .insert _ => true
  | .addRecord _ => true
  | _ => false

end Call

def next (table : Table) (call : Call) : Table :=
  (call.run.runOn table).2

def returnedId? (table : Table) (call : Call) : Option Int :=
  match (call.run.runOn table).1 with
  | .ok returned => returned
  | .error _ => none

def afterCalls (table : Table) (calls : List Call) : Table :=
  calls.foldl next table

def returnedIds (table : Table) : List Call → List Int
  | [] => []
  | call :: rest => (table.returnedId? call).toList ++ (table.next call).returnedIds rest

/-- What one call does to the counter: it does not go back, and an id that is returned is one
that it has passed. -/
structure Advances (table later : Table) (returned : Option Int) : Prop where
  numbered : later.IsNumbered
  le : table.schema.nextId ≤ later.schema.nextId
  passed : ∀ id, returned = some id → table.schema.nextId ≤ id ∧ id < later.schema.nextId

theorem Keeps.advances (h : table.Keeps later) : table.Advances later none :=
  ⟨h.numbered, Int.le_of_eq h.nextId.symm, fun _ hid => by cases hid⟩

theorem IsNumbered.advances_advanced (h : table.IsNumbered) : table.Advances table.advanced none :=
  ⟨h.advanced, Int.le_add_of_nonneg_right Int.one_nonneg, fun _ hid => by cases hid⟩

theorem Adds.ensures_advances {action : Action Table Int} (hadds : table.Adds action)
    (h : table.IsNumbered) :
    action.Ensures table (fun id later => table.Advances later (some id))
      fun _ later => table.Advances later none := by
  refine Ensures.mono hadds (fun id later hdone => ?_) fun _ later hfailed => ?_
  · obtain ⟨rfl, record, hrecord, rfl⟩ := hdone
    refine ⟨h.extended hrecord, ?_, fun id hid => ?_⟩
    · exact Int.le_add_of_nonneg_right Int.one_nonneg
    · cases hid
      exact ⟨Int.le_refl _, Int.lt_succ _⟩
  · rcases hfailed with rfl | rfl
    · exact h.keeps.advances
    · exact h.advances_advanced

theorem IsNumbered.ensures_run (h : table.IsNumbered) (call : Call) :
    call.run.Ensures table (fun returned later => table.Advances later returned)
      fun _ later => table.Advances later none := by
  have hkeeps {α : Type} {action : Action Table α}
      (haction : action.Ensures table (fun _ later => table.Keeps later)
        fun _ later => table.Keeps later) :
      ((fun _ => none) <$> action : Action Table (Option Int)).Ensures table
        (fun returned later => table.Advances later returned)
          fun _ later => table.Advances later none := by
    rw [ensures_map]
    exact haction.mono (fun _ _ hlater => hlater.advances) fun _ _ hlater => hlater.advances
  cases call with
  | insert values =>
      rw [Call.run, ensures_map]
      exact (h.adds_insert values).ensures_advances h
  | addRecord cells =>
      rw [Call.run, ensures_map]
      exact (table.adds_addRecord cells).ensures_advances h
  | updateRecord id assignments => exact hkeeps (h.ensures_updateRecord id assignments)
  | deleteRecords ids => exact hkeeps (h.ensures_deleteRecords ids)
  | addAttribute name => exact hkeeps (h.ensures_addAttribute name)
  | dropAttribute name => exact hkeeps (h.ensures_dropAttribute name)
  | allocateId =>
      rw [Call.run, ensures_map]
      refine ⟨h.advanced, Int.le_add_of_nonneg_right Int.one_nonneg, fun id hid => ?_⟩
      cases hid
      exact ⟨Int.le_refl _, Int.lt_succ _⟩

theorem IsNumbered.advances_next (h : table.IsNumbered) (call : Call) :
    table.Advances (table.next call) (table.returnedId? call) := by
  have hrun := h.ensures_run call
  rw [Ensures] at hrun
  rw [next, returnedId?]
  split at hrun
  · rename_i heq
    rw [heq]
    exact hrun
  · rename_i heq
    rw [heq]
    exact hrun

theorem IsNumbered.advances_afterCalls (h : table.IsNumbered) (calls : List Call) :
    (table.afterCalls calls).IsNumbered ∧
      table.schema.nextId ≤ (table.afterCalls calls).schema.nextId ∧
      (∀ id ∈ table.returnedIds calls, table.schema.nextId ≤ id) ∧
      (table.returnedIds calls).Pairwise (· < ·) := by
  induction calls generalizing table with
  | nil => exact ⟨h, Int.le_refl _, fun _ hid => absurd hid List.not_mem_nil, List.Pairwise.nil⟩
  | cons call rest ih =>
      have hcall := h.advances_next call
      obtain ⟨hnumbered, hle, hids, hpairwise⟩ := ih hcall.numbered
      refine ⟨hnumbered, Int.le_trans hcall.le hle, fun id hid => ?_, ?_⟩
      · rcases List.mem_append.1 hid with hid | hid
        · exact (hcall.passed id (Option.mem_toList.1 hid)).1
        · exact Int.le_trans hcall.le (hids id hid)
      · refine List.pairwise_append.2 ⟨?_, hpairwise, fun first hfirst second hsecond => ?_⟩
        · cases table.returnedId? call with
          | none => exact List.Pairwise.nil
          | some id => exact List.pairwise_singleton _ _
        · exact Int.lt_of_lt_of_le (hcall.passed first (Option.mem_toList.1 hfirst)).2
            (hids second hsecond)

def AddsOne (table later : Table) (returned : Option Int) : Prop :=
  ∃ id record, returned = some id ∧ record.get? idName = some (Text.ofInt id) ∧
    later.records.entries = table.records.entries ++ [(id, record)]

theorem Adds.ensures_addsOne {action : Action Table Int} (hadds : table.Adds action)
    (h : table.IsCounted) :
    (some <$> action : Action Table (Option Int)).Ensures table
      (fun returned later => table.AddsOne later returned) fun _ _ => True := by
  rw [ensures_map]
  refine Ensures.mono hadds (fun id later hdone => ?_) fun _ _ _ => trivial
  obtain ⟨rfl, record, hrecord, rfl⟩ := hdone
  exact ⟨_, record, rfl, hrecord, h.entries_extended record⟩

theorem IsNumbered.addsOne_next (h : table.IsNumbered) {call : Call}
    (hcall : call.isAddition = true) {returned : Option Int}
    (hrun : (call.run.runOn table).1 = .ok returned) :
    table.AddsOne (table.next call) returned := by
  cases call with
  | insert values => exact ((h.adds_insert values).ensures_addsOne h.counted).of_ok (Prod.ext hrun rfl)
  | addRecord cells =>
      exact ((table.adds_addRecord cells).ensures_addsOne h.counted).of_ok (Prod.ext hrun rfl)
  | _ => cases hcall

/-- However a numbered table is called, it is numbered after every call, its counter never goes
back, the ids that are returned ascend, and a call that adds a record adds one and changes no
other. -/
theorem calls_keep_numbered (h : table.IsNumbered) (calls : List Call) :
    (table.afterCalls calls).IsNumbered ∧
      (∀ more, (table.afterCalls calls).schema.nextId ≤
        (table.afterCalls (calls ++ more)).schema.nextId) ∧
      (table.returnedIds calls).Pairwise (· < ·) ∧
      ∀ call returned, call.isAddition = true →
        (call.run.runOn (table.afterCalls calls)).1 = .ok returned →
          (table.afterCalls calls).AddsOne (table.afterCalls (calls ++ [call])) returned := by
  obtain ⟨hnumbered, -, -, hpairwise⟩ := h.advances_afterCalls calls
  refine ⟨hnumbered, fun more => ?_, hpairwise, fun call returned hcall hrun => ?_⟩
  · rw [afterCalls, afterCalls, List.foldl_append]
    exact (hnumbered.advances_afterCalls more).2.1
  · rw [afterCalls, afterCalls, List.foldl_append]
    exact hnumbered.addsOne_next hcall hrun

def capitalized : Table :=
  ofSchema (.fresh ['t'] ⟨["ID".toList, ['a']], by decide +kernel⟩)

def smugglingCalls : List Call :=
  [.insert [['x']], .addRecord [("Id".toList, ['9']), (['A'], ['y'])], .insert [], .allocateId,
    .deleteRecords [1], .dropAttribute "iD".toList,
    .updateRecord 2 [(['a'], ['z']), ("id".toList, ['7'])], .addAttribute "id".toList]

theorem calls_keep_numbered_smuggling :
    (capitalized.afterCalls smugglingCalls).IsNumbered ∧
      capitalized.returnedIds smugglingCalls = [1, 2, 3] ∧
      (capitalized.afterCalls smugglingCalls).AddsOne
        (capitalized.afterCalls (smugglingCalls ++ [.insert [['w']]])) (some 4) := by
  have hstart : capitalized.IsNumbered :=
    isNumbered_ofSchema rfl ⟨"ID".toList, [['a']], rfl, by decide +kernel⟩
  obtain ⟨hnumbered, -, -, hadds⟩ := calls_keep_numbered hstart smugglingCalls
  exact ⟨hnumbered, by decide +kernel, hadds (.insert [['w']]) (some 4) rfl
    (eq_ok_of_toOption (by decide +kernel))⟩

end Table

end Relbase
