import Relbase.Proofs.Table.Sound

/-!
# Appending records

A new record goes under the next id, which is above all others as long as the counter is, so
its row is the last.
-/

namespace Relbase

open Relbase.Action

/-! ## Largest keys -/

namespace SortedMap

variable {κ ν : Type} [Ord κ] [Std.TransOrd κ] [Std.LawfulEqOrd κ]

theorem entries_insert_of_lt {map : SortedMap κ ν} {key : κ} (value : ν)
    (h : ∀ entry ∈ map.entries, compare entry.1 key = .lt) :
    (map.insert key value).entries = map.entries ++ [(key, value)] := by
  have hentries : ∀ entries : List (κ × ν), (∀ entry ∈ entries, compare entry.1 key = .lt) →
      insertEntry key value entries = entries ++ [(key, value)] := by
    intro entries
    induction entries with
    | nil => exact fun _ => rfl
    | cons first rest ih =>
        intro hentries
        obtain ⟨hfirst, hrest⟩ := List.forall_mem_cons.1 hentries
        rw [insertEntry, Std.OrientedCmp.gt_of_lt hfirst, ih hrest, List.cons_append]
  exact hentries map.entries h

end SortedMap

namespace Table

variable {table : Table}

/-! ## New records -/

def IsCounted (table : Table) : Prop :=
  ∀ id record, table.records.get? id = some record → id < table.schema.nextId

def numbered (id : Int) (cells : List (Text × Text)) : Record :=
  (SortedMap.ofList (cells.map fun entry => (entry.1.lower, entry.2))).insert idName
    (Text.ofInt id)

theorem get?_extended (table : Table) (record : Record) (id : Int) :
    (table.extended record).records.get? id =
      if table.schema.nextId = id then some record else table.records.get? id :=
  SortedMap.get?_insert table.records table.schema.nextId id record

theorem IsCounted.extended (h : table.IsCounted) (record : Record) :
    (table.extended record).IsCounted := by
  intro id found hfound
  change id < table.schema.nextId + 1
  rw [get?_extended] at hfound
  split at hfound
  · omega
  · have := h id found hfound
    omega

theorem IsCounted.entries_extended (h : table.IsCounted) (record : Record) :
    (table.extended record).records.entries =
      table.records.entries ++ [(table.schema.nextId, record)] := by
  apply SortedMap.entries_insert_of_lt
  intro entry hentry
  exact Int.compare_eq_lt.2 (h entry.1 entry.2 (SortedMap.get?_eq_some_iff.2 hentry))

theorem runOn_appendRecord (table : Table) {cells : List (Text × Text)}
    (hcells : ∀ entry ∈ cells, table.attributes.contains entry.1 = true) :
    (appendRecord cells).runOn table =
      (.ok table.schema.nextId, table.extended (numbered table.schema.nextId cells)) := by
  have hnone : (cells.find? fun entry => !table.attributes.contains entry.1) = none := by
    rw [List.find?_eq_none]
    intro entry hentry
    simp [hcells entry hentry]
  rw [appendRecord, runOn_get_bind, hnone]
  rfl

/-- A record is added only if all its names are attributes, and where that fails, no record has
changed but the id may be lost. -/
theorem ensures_addRecord (table : Table) (cells : List (Text × Text)) :
    (addRecord cells).Ensures table
      (fun id later => id = table.schema.nextId ∧
        (∀ entry ∈ cells, entry.1.lower ∈ table.columns) ∧
          later = table.extended (numbered table.schema.nextId cells))
      fun _ later => later = table ∨ later = table.advanced := by
  simp only [addRecord, ensures_bind, ensures_get]
  generalize Text.isOversized table.schema.nextId = oversized
  split
  · exact .inr rfl
  · simp only [appendRecord, allocateId, store, ensures_bind, ensures_get]
    split
    · exact .inl rfl
    · rename_i hnone
      refine ⟨rfl, fun entry hentry => ?_, rfl⟩
      simpa [columns] using List.find?_eq_none.1 hnone entry hentry

/-! ## Rows of new records -/

theorem row_numbered {cells : List (Text × Text)} (id : Int)
    (hdistinct : ((idName :: cells.map Prod.fst).map Text.lower).Nodup) :
    row ((idName :: cells.map Prod.fst).map Text.lower) (numbered id cells) =
      Text.ofInt id :: cells.map Prod.snd := by
  rw [List.map_cons, lower_idName, List.map_map] at hdistinct
  obtain ⟨hid, hdistinct⟩ := List.nodup_cons.1 hdistinct
  have hkeys : (Assoc.keys (cells.map fun entry => (entry.1.lower, entry.2))).Nodup := by
    rw [Assoc.keys, List.map_map]
    exact hdistinct
  have hcell : ∀ entry ∈ cells,
      ((numbered id cells).get? entry.1.lower).getD [] = entry.2 := by
    intro entry hentry
    have hne : idName ≠ entry.1.lower := fun heq => hid (heq ▸ List.mem_map_of_mem hentry)
    rw [numbered, SortedMap.get?_insert, if_neg hne, SortedMap.get?_ofList hkeys,
      (Assoc.get?_eq_some_iff hkeys).2 (List.mem_map_of_mem hentry)]
    rfl
  rw [row, List.map_cons, List.map_cons, lower_idName, numbered, SortedMap.get?_insert, if_pos rfl,
    ← numbered, List.map_map, List.map_map]
  exact congrArg _ (List.map_congr_left hcell)

theorem IsCounted.rows_extended (h : table.IsCounted) (record : Record) (names : List Text) :
    (table.extended record).rows names =
      table.rows names ++ [row (names.map Text.lower) record] := by
  rw [rows, rows, h.entries_extended, List.map_append]
  rfl

def appendedAll (table : Table) (rows : List (List (Text × Text))) : Table :=
  rows.foldl (fun table cells => table.extended (numbered table.schema.nextId cells)) table

theorem appendedAll_append (table : Table) (first second : List (List (Text × Text))) :
    table.appendedAll (first ++ second) = (table.appendedAll first).appendedAll second :=
  List.foldl_append

theorem attributes_appendedAll (table : Table) (rows : List (List (Text × Text))) :
    (table.appendedAll rows).attributes = table.attributes := by
  induction rows generalizing table with
  | nil => rfl
  | cons cells rest ih => exact ih (table.extended (numbered table.schema.nextId cells))

theorem IsCounted.rows_appendedAll (h : table.IsCounted) {next : Nat}
    (hnext : table.schema.nextId = next) {names : List Text} {rows : List (List (Text × Text))}
    (hrows : ∀ cells ∈ rows, ∀ id, row (names.map Text.lower) (numbered id cells) =
      Text.ofInt id :: cells.map Prod.snd) :
    (table.appendedAll rows).rows names =
      table.rows names ++ (rows.zipIdx next).map fun entry =>
        Text.ofInt entry.2 :: entry.1.map Prod.snd := by
  induction rows generalizing table next with
  | nil => simp [appendedAll]
  | cons cells rest ih =>
      obtain ⟨hcells, hrest⟩ := List.forall_mem_cons.1 hrows
      have hlater : (table.extended (numbered table.schema.nextId cells)).schema.nextId =
          ((next + 1 : Nat) : Int) := congrArg (· + 1) hnext
      rw [appendedAll, List.foldl_cons, ← appendedAll, ih (h.extended _) hlater hrest,
        h.rows_extended, hcells, hnext, List.append_assoc, List.zipIdx_cons, List.map_cons]
      rfl

end Table

end Relbase
