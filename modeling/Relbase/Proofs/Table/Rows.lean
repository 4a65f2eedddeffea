import Relbase.Proofs.Table.Sound
import Relbase.Proofs.Text.Split

/-!
# Reading back row files

A row file is read back as it was written if no cell has a tab or a line break in it; and
whatever a row file holds, the cells that are read from it have neither.
-/

namespace Relbase

open Relbase.Action

/-- A cell that takes one place in one line. -/
structure IsPlainCell (cell : Text) : Prop where
  noTab : '\t' ∉ cell
  noBreak : ∀ c ∈ cell, Text.isLineBreak c = false

instance (cell : Text) : Decidable (IsPlainCell cell) :=
  decidable_of_iff (cell.all fun c => c ≠ '\t' && !Text.isLineBreak c) (by
    simp only [List.all_eq_true, Bool.and_eq_true, decide_eq_true_eq, Bool.not_eq_true']
    exact ⟨fun h => ⟨fun htab => (h _ htab).1 rfl, fun c hc => (h c hc).2⟩,
      fun h c hc => ⟨fun heq => h.noTab (heq ▸ hc), h.noBreak c hc⟩⟩)

/-! ## Lines -/

namespace Text

theorem lines_cons {c : Char} (hc : isLineBreak c = false) (rest : Text) :
    lines (c :: rest) = if rest = [] then [[c]] else extendFirst c (lines rest) := by
  rw [lines, if_neg (by simp [hc])]
  rintro later rfl rfl
  cases hc

theorem lines_append {line : Text} (hline : ∀ c ∈ line, isLineBreak c = false) (rest : Text) :
    lines (line ++ '\n' :: rest) = line :: lines rest := by
  induction line with
  | nil =>
      rw [List.nil_append, lines, if_pos (by decide)]
      rintro later ⟨⟩
  | cons c line ih =>
      obtain ⟨hc, hline⟩ := List.forall_mem_cons.1 hline
      rw [List.cons_append, lines_cons hc, if_neg (by simp), ih hline]
      rfl

theorem isLineBreak_of_mem_lines {text line : Text} (h : line ∈ lines text) :
    ∀ c ∈ line, isLineBreak c = false := by
  fun_induction lines text generalizing line with
  | case1 => cases h
  | case2 rest ih =>
      rcases List.mem_cons.1 h with rfl | h
      · exact fun c hc => absurd hc List.not_mem_nil
      · exact ih h
  | case3 c rest _ hbreak ih =>
      rcases List.mem_cons.1 h with rfl | h
      · exact fun c hc => absurd hc List.not_mem_nil
      · exact ih h
  | case4 c hbreak _ =>
      intro d hd
      rw [List.mem_singleton.1 h, List.mem_singleton] at hd
      simpa [hd] using hbreak
  | case5 c rest _ hbreak _ ih =>
      intro d hd
      rcases mem_of_mem_extendFirst h hd with rfl | ⟨other, hother, hd⟩
      · simpa using hbreak
      · exact ih hother d hd

theorem mem_join {separator : Text} {pieces : List Text} {c : Char}
    (h : c ∈ join separator pieces) : c ∈ separator ∨ ∃ piece ∈ pieces, c ∈ piece := by
  induction pieces with
  | nil => cases h
  | cons piece rest ih =>
      cases rest with
      | nil => exact .inr ⟨piece, List.mem_cons_self, h⟩
      | cons next later =>
          rw [join, List.mem_append, List.mem_append] at h
          · rcases h with (h | h) | h
            · exact .inr ⟨piece, List.mem_cons_self, h⟩
            · exact .inl h
            · rcases ih h with hseparator | ⟨other, hother, hc⟩
              · exact .inl hseparator
              · exact .inr ⟨other, List.mem_cons_of_mem _ hother, hc⟩
          · simp

theorem subset_join (separator : Text) {piece : Text} {pieces : List Text} (h : piece ∈ pieces) :
    piece ⊆ join separator pieces := by
  induction pieces with
  | nil => cases h
  | cons first rest ih =>
      cases rest with
      | nil => exact List.mem_singleton.1 h ▸ List.Subset.refl piece
      | cons next later =>
          rw [join]
          rcases List.mem_cons.1 h with rfl | h
          · exact fun c hc => List.mem_append_left _ (List.mem_append_left _ hc)
          · exact fun c hc => List.mem_append_right _ (ih h hc)
          · simp

end Text

namespace RowFile

/-! ## Files -/

theorem lines_renderLine {cells : List Text}
    (hcells : ∀ cell ∈ cells, ∀ c ∈ cell, Text.isLineBreak c = false) (rest : Text) :
    Text.lines (renderLine cells ++ rest) = Text.join ['\t'] cells :: Text.lines rest := by
  rw [renderLine, List.append_assoc]
  refine Text.lines_append (fun c hc => ?_) rest
  rcases Text.mem_join hc with htab | ⟨cell, hcell, hc⟩
  · rw [List.mem_singleton.1 htab]
    rfl
  · exact hcells cell hcell c hc

theorem lines_render {rows : List (List Text)} (hrows : ∀ row ∈ rows, ∀ cell ∈ row, IsPlainCell cell) :
    Text.lines (rows.flatMap renderLine) = rows.map (Text.join ['\t']) := by
  induction rows with
  | nil => rfl
  | cons row rest ih =>
      obtain ⟨hrow, hrest⟩ := List.forall_mem_cons.1 hrows
      rw [List.flatMap_cons, lines_renderLine fun cell hcell => (hrow cell hcell).noBreak, ih hrest]
      rfl

/-- The names in the header may have tabs in them, since they are not read. -/
theorem rows_parse_render {file : RowFile}
    (hheader : ∀ name ∈ file.header, ∀ c ∈ name, Text.isLineBreak c = false)
    (hrows : ∀ row ∈ file.rows, ∀ cell ∈ row, IsPlainCell cell)
    (hcells : ∀ row ∈ file.rows, ∃ cell ∈ row, cell ≠ []) :
    (parse file.render).rows = file.rows := by
  have hlines : (file.rows.map (Text.join ['\t'])).filter (!·.isEmpty) =
      file.rows.map (Text.join ['\t']) := by
    refine List.filter_eq_self.2 fun line hline => ?_
    obtain ⟨row, hrow, rfl⟩ := List.mem_map.1 hline
    obtain ⟨cell, hcell, hne⟩ := hcells row hrow
    obtain ⟨c, hc⟩ := List.exists_mem_of_ne_nil cell hne
    simpa using List.ne_nil_of_mem (Text.subset_join ['\t'] hcell hc)
  have hread : (file.rows.map (Text.join ['\t'])).map (Text.splitOn '\t') = file.rows := by
    rw [List.map_map]
    refine (List.map_congr_left fun row hrow => ?_).trans (List.map_id _)
    obtain ⟨cell, hcell, _⟩ := hcells row hrow
    exact Text.splitOn_join (List.ne_nil_of_mem hcell) fun other hother =>
      (hrows row hrow other hother).noTab
  rw [parse, render, lines_renderLine hheader, lines_render hrows]
  simp only [hlines, hread]

theorem isPlainCell_of_parse {text : Text} :
    ∀ row ∈ (parse text).rows, ∀ cell ∈ row, IsPlainCell cell := by
  intro row hrow cell hcell
  rw [parse] at hrow
  split at hrow
  · cases hrow
  · rename_i header lines hlines
    obtain ⟨line, hline, rfl⟩ := List.mem_map.1 hrow
    have hmem : line ∈ Text.lines text := hlines ▸ List.mem_cons_of_mem _ (List.mem_of_mem_filter hline)
    refine ⟨Text.not_mem_of_mem_splitOn hcell, fun c hc => ?_⟩
    exact Text.isLineBreak_of_mem_lines hmem c (Text.mem_of_mem_splitOn hcell hc)

end RowFile

/-! ## Records -/

theorem isPlainCell_nil : IsPlainCell [] :=
  ⟨List.not_mem_nil, fun _ hc => absurd hc List.not_mem_nil⟩

theorem IsIdentifier.isPlainCell {name : Text} (h : IsIdentifier name) : IsPlainCell name := by
  have hchars : ∀ c ∈ name, c.isAlphanum = true := List.all_eq_true.1 h.alphanum
  exact ⟨fun htab => absurd (hchars _ htab) (by decide),
    fun c hc => isLineBreak_of_isAlphanum (hchars c hc)⟩

theorem Assoc.get?_map_of_mem {κ ν : Type} [DecidableEq κ] (f : κ → ν) {keys : List κ} {key : κ}
    (h : key ∈ keys) : get? key (keys.map fun other => (other, f other)) = some (f key) := by
  induction keys with
  | nil => cases h
  | cons first rest ih =>
      rw [List.map_cons, get?]
      split
      · rename_i heq
        exact congrArg (fun other => some (f other)) heq
      · rename_i hne
        exact ih ((List.mem_cons.1 h).resolve_left (Ne.symm hne))

namespace Table

theorem HasRecord.recordOf_row {columns : List Text} {id : Int} {record : Record}
    (h : HasRecord columns id record) (hdistinct : columns.Nodup) :
    RowFile.recordOf columns (row columns record) = record := by
  have hzip : columns.zip (row columns record ++
      List.replicate (columns.length - (row columns record).length) []) =
        columns.map fun column => (column, (record.get? column).getD []) := by
    rw [row, List.length_map, Nat.sub_self, List.replicate_zero, List.append_nil,
      ← List.map_prod_left_eq_zip]
  have hkeys : Assoc.keys (columns.map fun column => (column, (record.get? column).getD [])) =
      columns :=
    (List.map_map ..).trans (List.map_id columns)
  rw [RowFile.recordOf, hzip]
  refine SortedMap.ext_get? fun key => ?_
  rw [SortedMap.get?_ofList (by rwa [hkeys])]
  by_cases hkey : key ∈ columns
  · obtain ⟨cell, hcell⟩ := Option.isSome_iff_exists.1 ((h.isSome_iff key).2 hkey)
    rw [Assoc.get?_map_of_mem _ hkey, hcell]
    rfl
  · have hnone : record.get? key = none := by
      simpa using mt (h.isSome_iff key).1 hkey
    rw [hnone, Assoc.get?_eq_none_iff, hkeys]
    exact hkey

theorem runOn_loadRows {schema : Schema} {entries : List (Int × Record)} {records : Records}
    (path : Text) (h : ∀ entry ∈ entries, HasRecord schema.attributes.keys entry.1 entry.2) :
    (loadRows path (entries.map fun entry => row schema.attributes.keys entry.2)).runOn
      ⟨schema, records⟩ =
        (.ok (), ⟨schema, entries.foldl (fun map entry => map.insert entry.1 entry.2) records⟩) := by
  induction entries generalizing records with
  | nil => rfl
  | cons entry rest ih =>
      obtain ⟨hentry, hrest⟩ := List.forall_mem_cons.1 h
      obtain ⟨cell, hcell, hid⟩ := hentry.readsId
      have hstore : (store entry.1 entry.2).runOn ⟨schema, records⟩ =
          (.ok (), ⟨schema, records.insert entry.1 entry.2⟩) := rfl
      have hrecord : RowFile.recordOf (columns ⟨schema, records⟩)
          (row schema.attributes.keys entry.2) = entry.2 :=
        hentry.recordOf_row schema.attributes.distinct
      rw [List.map_cons, loadRows, runOn_get_bind]
      simp only [hrecord, hcell, hid]
      rw [runOn_bind_of_ok hstore]
      exact ih hrest

variable {key : Text} {table : Table}

theorem HasRecords.runOn_load (h : table.HasRecords) (path : Text) {file : RowFile}
    (hrows : file.rows = (RowFile.ofTable table).rows) :
    (load path file).runOn (ofSchema table.schema) = (.ok (), table) := by
  have hrecords : ∀ entry ∈ table.records.entries,
      HasRecord table.schema.attributes.keys entry.1 entry.2 :=
    fun entry hentry => h entry.1 entry.2 (SortedMap.get?_eq_some_iff.2 hentry)
  have hempty : (modify fun table => { table with records := SortedMap.empty } :
      Action Table Unit).runOn (ofSchema table.schema) = (.ok (), ofSchema table.schema) := rfl
  rw [load, runOn_bind_of_ok hempty, hrows]
  refine (runOn_loadRows path hrecords).trans ?_
  have hall : table.records.entries.foldl (fun map entry => map.insert entry.1 entry.2)
      SortedMap.empty = table.records := SortedMap.ofList_entries table.records
  rw [hall]

/-! ## Plain tables -/

def IsPlain (table : Table) : Prop :=
  ∀ id record, table.records.get? id = some record →
    ∀ column cell, record.get? column = some cell → IsPlainCell cell

theorem HasRecords.isPlain_iff (h : table.HasRecords) :
    table.IsPlain ↔ ∀ row ∈ table.rows table.attributes.names, ∀ cell ∈ row, IsPlainCell cell := by
  constructor
  · intro hplain cells hcells cell hcell
    obtain ⟨entry, hentry, rfl⟩ := List.mem_map.1 hcells
    obtain ⟨column, hcolumn, rfl⟩ := List.mem_map.1 hcell
    cases hfound : entry.2.get? column with
    | none => exact isPlainCell_nil
    | some cell => exact hplain _ _ (SortedMap.get?_eq_some_iff.2 hentry) column cell hfound
  · intro hplain id record hrecord column cell hcell
    have hcolumn : column ∈ table.columns :=
      ((h id record hrecord).isSome_iff column).1 (by rw [hcell]; rfl)
    refine hplain _ (List.mem_map_of_mem (SortedMap.get?_eq_some_iff.1 hrecord)) cell ?_
    exact List.mem_map.2 ⟨column, hcolumn, by rw [hcell]; rfl⟩

theorem isPlain_iff (h : table.IsSound key) :
    table.IsPlain ↔ ∀ row ∈ table.rows table.attributes.names, ∀ cell ∈ row, IsPlainCell cell :=
  HasRecords.isPlain_iff h.records

theorem isPlainCell_of_recordOf {columns cells : List Text} (hdistinct : columns.Nodup)
    (hplain : ∀ cell ∈ cells, IsPlainCell cell) {column cell : Text}
    (h : (RowFile.recordOf columns cells).get? column = some cell) : IsPlainCell cell := by
  rw [RowFile.get?_recordOf hdistinct] at h
  rcases List.mem_append.1 (List.of_mem_zip (Assoc.mem_of_get? h)).2 with hcell | hcell
  · exact hplain cell hcell
  · rw [List.eq_of_mem_replicate hcell]
    exact isPlainCell_nil

theorem isPlain_loadRows (path : Text) {rows : List (List Text)}
    (hrows : ∀ row ∈ rows, ∀ cell ∈ row, IsPlainCell cell) (h : table.IsPlain) :
    (loadRows path rows).Ensures table (fun _ later => later.IsPlain) fun _ later => later.IsPlain := by
  induction rows generalizing table with
  | nil => exact h
  | cons cells rest ih =>
      obtain ⟨hcells, hrest⟩ := List.forall_mem_cons.1 hrows
      simp only [loadRows, store, ensures_bind, ensures_get]
      split
      · exact h
      split
      · exact h
      · rw [ensures_bind, ensures_modify]
        refine ih hrest fun other record hrecord column cell hcell => ?_
        rw [SortedMap.get?_insert] at hrecord
        split at hrecord
        · cases hrecord
          exact isPlainCell_of_recordOf table.nodup_columns hcells hcell
        · exact h other record hrecord column cell hcell

theorem isPlain_load (path text : Text) (table : Table) :
    (load path (RowFile.parse text)).Ensures table (fun _ later => later.IsPlain)
      fun _ later => later.IsPlain := by
  simp only [load, ensures_bind, ensures_modify]
  exact isPlain_loadRows path RowFile.isPlainCell_of_parse fun id record hrecord => by cases hrecord

/-! ## Rendered tables -/

end Table

structure Schema.IsTabular (schema : Schema) : Prop where
  idName_mem : idName ∈ schema.attributes.keys
  noBreak : ∀ name ∈ schema.attributes.names, ∀ c ∈ name, Text.isLineBreak c = false

theorem Schema.IsSound.isTabular {key : Text} {schema : Schema} (h : schema.IsSound key) :
    schema.IsTabular :=
  ⟨h.idName_mem, fun name hname => (h.identifiers name hname).isPlainCell.noBreak⟩

/-- The id's cell keeps the line of a record from being skipped as an empty one. -/
theorem Table.HasRecords.rows_parse_render {table : Table} (h : table.HasRecords)
    (hschema : table.schema.IsTabular) (hplain : table.IsPlain) :
    (RowFile.parse (RowFile.ofTable table).render).rows = (RowFile.ofTable table).rows := by
  refine RowFile.rows_parse_render hschema.noBreak (h.isPlain_iff.1 hplain) fun row hrow => ?_
  obtain ⟨entry, hentry, rfl⟩ := List.mem_map.1 hrow
  obtain ⟨cell, hcell, hid⟩ := (h _ _ (SortedMap.get?_eq_some_iff.2 hentry)).readsId
  refine ⟨cell, List.mem_map.2 ⟨idName, hschema.idName_mem, by rw [hcell]; rfl⟩, ?_⟩
  rintro rfl
  cases hid

end Relbase
