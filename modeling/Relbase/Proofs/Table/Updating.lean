import Relbase.Proofs.Table.Failures

/-!
# Updating records

Assignments are checked and made one after another, record by record.  Whether one is refused
does not depend on the record, so an update that fails has only come to its first record, and
has made in it the assignments before the one that was refused.
-/

namespace Relbase

open Relbase.Action

namespace Table

/-! ## Assigned values -/

/-- The value that assignments leave under a key: that of the last one to it. -/
def lastAssigned? (assignments : List (Text × Text)) (key : Text) : Option Text :=
  (assignments.reverse.find? fun assignment => assignment.1.lower = key).map Prod.snd

def assigned (assignments : List (Text × Text)) (record : Record) : Record :=
  record.mapValues fun key value => (lastAssigned? assignments key).getD value

theorem lastAssigned?_cons (assignment : Text × Text) (rest : List (Text × Text)) (key : Text) :
    lastAssigned? (assignment :: rest) key =
      (lastAssigned? rest key).or
        (if assignment.1.lower = key then some assignment.2 else none) := by
  rw [lastAssigned?, lastAssigned?, List.reverse_cons, List.find?_append, List.find?_singleton]
  by_cases h : assignment.1.lower = key
  · cases rest.reverse.find? fun assignment => assignment.1.lower = key <;> simp [h]
  · cases rest.reverse.find? fun assignment => assignment.1.lower = key <;> simp [h]

theorem assigned_nil (record : Record) : assigned [] record = record := by
  apply SortedMap.ext_get?
  intro key
  rw [assigned, SortedMap.get?_mapValues]
  cases record.get? key <;> rfl

theorem assigned_cons {name value old : Text} {record : Record}
    (h : record.get? name.lower = some old) (rest : List (Text × Text)) :
    assigned ((name, value) :: rest) record = assigned rest (record.insert name.lower value) := by
  apply SortedMap.ext_get?
  intro key
  simp only [assigned, SortedMap.get?_mapValues, SortedMap.get?_insert, lastAssigned?_cons]
  by_cases hkey : name.lower = key
  · rw [← hkey, h]
    cases lastAssigned? rest name.lower <;> simp
  · simp [hkey]

/-! ## Updated tables -/

variable {key : Text} {table : Table} {assignments : List (Text × Text)}

def updated (table : Table) (ids : List Int) (assignments : List (Text × Text)) : Table :=
  { table with
    records := table.records.mapValues fun id (record : Record) =>
      if id ∈ ids then assigned assignments record else record }

theorem get?_updated (table : Table) (ids : List Int) (assignments : List (Text × Text))
    (id : Int) :
    (table.updated ids assignments).records.get? id =
      (table.records.get? id).map fun record =>
        if id ∈ ids then assigned assignments record else record :=
  SortedMap.get?_mapValues _ table.records id

theorem ext_records {first second : Table} (hschema : first.schema = second.schema)
    (hrecords : ∀ id, first.records.get? id = second.records.get? id) : first = second := by
  cases first
  cases second
  cases hschema
  exact congrArg (Table.mk _) (SortedMap.ext_get? hrecords)

theorem updated_of_forall {ids : List Int}
    (h : ∀ id ∈ ids, ∀ record, table.records.get? id = some record →
      assigned assignments record = record) : table.updated ids assignments = table := by
  refine ext_records rfl fun id => ?_
  rw [get?_updated]
  cases hrecord : table.records.get? id with
  | none => rfl
  | some record =>
      by_cases hid : id ∈ ids
      · rw [Option.map_some, if_pos hid, h id hid record hrecord]
      · rw [Option.map_some, if_neg hid]

theorem updated_nil_ids (table : Table) (assignments : List (Text × Text)) :
    table.updated [] assignments = table :=
  updated_of_forall fun _ hmem => absurd hmem List.not_mem_nil

theorem updated_nil (table : Table) (ids : List Int) : table.updated ids [] = table :=
  updated_of_forall fun _ _ record _ => assigned_nil record

theorem updated_cons_ids {id : Int} {rest : List Int} (h : id ∉ rest) :
    (table.updated [id] assignments).updated rest assignments =
      table.updated (id :: rest) assignments := by
  refine ext_records rfl fun other => ?_
  simp only [get?_updated, List.mem_cons]
  cases table.records.get? other with
  | none => rfl
  | some record =>
      by_cases hother : other = id
      · simp [hother, h]
      · simp [hother]

theorem updated_cons {id : Int} {name value old : Text} {record : Record}
    (hrecord : table.records.get? id = some record) (hold : record.get? name.lower = some old)
    (rest : List (Text × Text)) :
    updated { table with records := table.records.insert id (record.insert name.lower value) } [id]
        rest = table.updated [id] ((name, value) :: rest) := by
  refine ext_records rfl fun other => ?_
  simp only [get?_updated, List.mem_singleton, SortedMap.get?_insert]
  by_cases hother : id = other
  · subst hother
    simp [hrecord, assigned_cons hold]
  · simp [hother, Ne.symm hother]

/-! ## Refused assignments -/

/-- Whether no value may be assigned under a name: it is that of the id, or there is no such
attribute. -/
def refuses (table : Table) (name : Text) : Bool :=
  name.lower == idName || !table.attributes.contains name

def refusal (name : Text) : DbError :=
  if name.lower = idName then .primaryKeyAlteration else .attributeNotFound name

theorem IsSound.runOn_assign_refused (h : table.IsSound key) (id : Int) {name : Text}
    (hname : table.refuses name = true) (value : Text) (rest : List (Text × Text)) :
    (assign id ((name, value) :: rest)).runOn table =
      (.error (.reported (refusal name)), table) := by
  rw [assign, runOn_get_bind, refusal]
  by_cases hkey : name.lower = idName
  · rw [if_pos ((h.schema.isKey_iff name).2 hkey), if_pos hkey]
    rfl
  · have hmissing : (!table.attributes.contains name) = true := by
      simpa [refuses, hkey] using hname
    rw [if_neg (mt (h.schema.isKey_iff name).1 hkey), if_pos hmissing, if_neg hkey]
    rfl

theorem IsSound.runOn_assign_cons (h : table.IsSound key) {id : Int} {record : Record}
    (hrecord : table.records.get? id = some record) {name : Text}
    (hname : table.refuses name = false) (value : Text) (rest : List (Text × Text)) :
    (assign id ((name, value) :: rest)).runOn table =
      (assign id rest).runOn
        { table with records := table.records.insert id (record.insert name.lower value) } := by
  obtain ⟨hkey, hknown⟩ : name.lower ≠ idName ∧ table.attributes.contains name = true := by
    simpa [refuses] using hname
  have hknown : ¬ (!table.attributes.contains name) = true := by simp [hknown]
  rw [assign, runOn_get_bind, if_neg (mt (h.schema.isKey_iff name).1 hkey), if_neg hknown, hrecord]
  rfl

/-! ## Updating -/

theorem IsSound.exists_old (h : table.IsSound key) {id : Int} {record : Record}
    (hrecord : table.records.get? id = some record) {name : Text}
    (hname : table.refuses name = false) : ∃ old, record.get? name.lower = some old := by
  have hknown : name.lower ∈ table.columns := by
    have : name.lower ≠ idName ∧ name.lower ∈ table.attributes.keys := by
      simpa [refuses] using hname
    exact this.2
  exact Option.isSome_iff_exists.1 (((h.records id record hrecord).isSome_iff _).2 hknown)

theorem IsSound.updated (h : table.IsSound key) (ids : List Int)
    (haccepted : ∀ assignment ∈ assignments, table.refuses assignment.1 = false) :
    (table.updated ids assignments).IsSound key := by
  refine ⟨h.schema, fun id record hrecord => ?_⟩
  rw [get?_updated, Option.map_eq_some_iff] at hrecord
  obtain ⟨old, hold, rfl⟩ := hrecord
  have hsound := h.records id old hold
  split
  · refine ⟨fun column => ?_, ?_⟩
    · rw [assigned, SortedMap.get?_mapValues, Option.isSome_map]
      exact hsound.isSome_iff column
    · obtain ⟨cell, hcell, hread⟩ := hsound.readsId
      have hnone : lastAssigned? assignments idName = none := by
        rw [lastAssigned?, Option.map_eq_none_iff, List.find?_eq_none]
        intro assignment hassignment
        have := haccepted assignment (List.mem_reverse.1 hassignment)
        simp only [refuses, Bool.or_eq_false_iff, beq_eq_false_iff_ne] at this
        simpa using this.1
      exact ⟨cell, by rw [assigned, SortedMap.get?_mapValues, hcell, hnone]; rfl, hread⟩
  · exact hsound

theorem IsSound.runOn_assign_append (h : table.IsSound key) {id : Int} {record : Record}
    (hrecord : table.records.get? id = some record) {before : List (Text × Text)}
    (hbefore : ∀ assignment ∈ before, table.refuses assignment.1 = false)
    (rest : List (Text × Text)) :
    (assign id (before ++ rest)).runOn table =
      (assign id rest).runOn (table.updated [id] before) := by
  induction before generalizing table record with
  | nil => rw [updated_nil, List.nil_append]
  | cons assignment before ih =>
      obtain ⟨name, value⟩ := assignment
      obtain ⟨hname, hbefore⟩ := List.forall_mem_cons.1 hbefore
      obtain ⟨old, hold⟩ := h.exists_old hrecord hname
      have hid : name.lower ≠ idName := by
        simp only [refuses, Bool.or_eq_false_iff, beq_eq_false_iff_ne] at hname
        exact hname.1
      have hmem := ((h.records id record hrecord).isSome_iff name.lower).1 (by rw [hold]; rfl)
      have hlater := h.withRecord ((h.records id record hrecord).insert hmem hid value)
      rw [List.cons_append, h.runOn_assign_cons hrecord hname,
        ih hlater (by rw [SortedMap.get?_insert, if_pos rfl]) hbefore, updated_cons hrecord hold]

theorem runOn_updateRecords_cons (table : Table) {id : Int} {record : Record}
    (hrecord : table.records.get? id = some record) (assignments : List (Text × Text))
    (rest : List Int) :
    (updateRecords assignments (id :: rest)).runOn table =
      (assign id assignments >>= fun _ => updateRecords assignments rest).runOn table := by
  rw [updateRecords, runOn_bind, updateRecord, runOn_get_bind, hrecord, runOn_bind]

theorem IsSound.runOn_updateRecords (h : table.IsSound key) {ids : List Int} (hdistinct : ids.Nodup)
    (hids : ∀ id ∈ ids, (table.records.get? id).isSome = true)
    (haccepted : ∀ assignment ∈ assignments, table.refuses assignment.1 = false) :
    (updateRecords assignments ids).runOn table = (.ok (), table.updated ids assignments) := by
  induction ids generalizing table with
  | nil =>
      rw [updated_nil_ids]
      rfl
  | cons id rest ih =>
      obtain ⟨hid, hrest⟩ := List.forall_mem_cons.1 hids
      obtain ⟨hnew, hdistinct⟩ := List.nodup_cons.1 hdistinct
      obtain ⟨record, hrecord⟩ := Option.isSome_iff_exists.1 hid
      have hassign : (assign id assignments).runOn table =
          (.ok (), table.updated [id] assignments) := by
        have := h.runOn_assign_append hrecord haccepted []
        rwa [List.append_nil] at this
      rw [runOn_updateRecords_cons table hrecord, runOn_bind_of_ok hassign,
        ih (h.updated [id] haccepted) hdistinct ?_ haccepted, updated_cons_ids hnew]
      intro other hother
      rw [get?_updated, Option.isSome_map]
      exact hrest other hother

theorem IsSound.runOn_updateRecords_refused (h : table.IsSound key) {id : Int}
    (hid : (table.records.get? id).isSome = true) {before : List (Text × Text)}
    (hbefore : ∀ assignment ∈ before, table.refuses assignment.1 = false) {refused : Text × Text}
    (hrefused : table.refuses refused.1 = true) (after : List (Text × Text)) (rest : List Int) :
    (updateRecords (before ++ refused :: after) (id :: rest)).runOn table =
      (.error (.reported (refusal refused.1)), table.updated [id] before) := by
  obtain ⟨record, hrecord⟩ := Option.isSome_iff_exists.1 hid
  have hassign : (assign id (before ++ refused :: after)).runOn table =
      (.error (.reported (refusal refused.1)), table.updated [id] before) :=
    (h.runOn_assign_append hrecord hbefore _).trans
      ((h.updated [id] hbefore).runOn_assign_refused id hrefused refused.2 after)
  rw [runOn_updateRecords_cons table hrecord, runOn_bind, hassign]

/-! ## Updating where a condition holds -/

def updateWhere (assignments : List (Text × Text)) (condition : Condition) :
    Action Table Unit := do
  let ids ← Action.ofOutcome ((← get).select condition)
  updateRecords assignments ids

theorem IsTotal.of_select (h : table.IsTotal) {condition : Condition} {ids : List Int}
    (hids : table.select condition = .ok ids) :
    ids.Pairwise (· < ·) ∧ ∀ id ∈ ids, (table.records.get? id).isSome = true := by
  rw [h.select_eq] at hids
  cases hunknown : table.firstUnknown? condition with
  | some comparison => simp [hunknown] at hids
  | none =>
      simp only [hunknown, Except.ok.injEq] at hids
      subst hids
      refine ⟨table.pairwise_idsWhere _, fun id hid => ?_⟩
      obtain ⟨record, hrecord, _⟩ := mem_idsWhere.1 hid
      rw [hrecord]
      rfl

theorem runOn_updateWhere {condition : Condition} {ids : List Int}
    (hids : table.select condition = .ok ids) :
    (updateWhere assignments condition).runOn table =
      (updateRecords assignments ids).runOn table := by
  rw [updateWhere, runOn_get_bind, runOn_bind, runOn_ofOutcome, hids]

theorem IsSound.runOn_updateWhere (h : table.IsSound key) {condition : Condition} {ids : List Int}
    (hids : table.select condition = .ok ids)
    (haccepted : ids = [] ∨ ∀ assignment ∈ assignments, table.refuses assignment.1 = false) :
    (updateWhere assignments condition).runOn table = (.ok (), table.updated ids assignments) := by
  rw [Table.runOn_updateWhere hids]
  rcases haccepted with rfl | haccepted
  · rw [updated_nil_ids]
    rfl
  · obtain ⟨hascending, hpresent⟩ := h.isTotal.of_select hids
    exact h.runOn_updateRecords (hascending.imp Int.ne_of_lt) hpresent haccepted

theorem IsSound.runOn_updateWhere_refused (h : table.IsSound key) {condition : Condition}
    {first : Int} {rest : List Int} (hids : table.select condition = .ok (first :: rest))
    {made : List (Text × Text)} (hmade : ∀ assignment ∈ made, table.refuses assignment.1 = false)
    {refused : Text × Text} (hrefused : table.refuses refused.1 = true)
    (others : List (Text × Text)) :
    (updateWhere (made ++ refused :: others) condition).runOn table =
      (.error (.reported (refusal refused.1)), table.updated [first] made) := by
  have hpresent := (h.isTotal.of_select hids).2 first List.mem_cons_self
  rw [Table.runOn_updateWhere hids, h.runOn_updateRecords_refused hpresent hmade hrefused]

theorem exists_first_refused (table : Table)
    (h : ∃ assignment ∈ assignments, table.refuses assignment.1 = true) :
    ∃ made refused others, assignments = made ++ refused :: others ∧
      (∀ assignment ∈ made, table.refuses assignment.1 = false) ∧
        table.refuses refused.1 = true := by
  cases hfind : assignments.find? fun assignment => table.refuses assignment.1 with
  | none =>
      obtain ⟨assignment, hmem, hrefused⟩ := h
      exact absurd hrefused (List.find?_eq_none.1 hfind assignment hmem)
  | some refused =>
      obtain ⟨hrefused, made, others, rfl, hmade⟩ := List.find?_eq_some_iff_append.1 hfind
      exact ⟨made, refused, others, rfl, fun assignment hmem => by simpa using hmade assignment hmem,
        hrefused⟩

end Table

end Relbase
