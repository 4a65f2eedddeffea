import Relbase.Proofs.Table.Rows
import Relbase.Table.Wide

/-!
# Tables that can be written

A table with surrogates in no cell is a table of texts, and it is written as that table is.  A
table with a surrogate in some cell is not written: the lines before the first such cell stay in
the file, and the failure is not foreseen.
-/

namespace Relbase

open Relbase.Action

/-! ## Texts -/

namespace CodePoint

def isSurrogate : CodePoint → Bool
  | .char _ => false
  | .surrogate _ => true

def isDelimiter : CodePoint → Bool
  | .char c => c == '\t' || Text.isLineBreak c
  | .surrogate _ => false

end CodePoint

namespace WideText

theorem encode?_ofText (text : Text) : encode? (ofText text) = some text := by
  induction text with
  | nil => rfl
  | cons c rest ih =>
      change (encode? (ofText rest)).map (c :: ·) = _
      rw [ih]
      rfl

theorem ofText_injective : Function.Injective ofText := fun first second h => by
  have hencode := congrArg encode? h
  rw [encode?_ofText, encode?_ofText] at hencode
  exact Option.some.inj hencode

theorem isSome_encode?_iff {wide : WideText} :
    (encode? wide).isSome = true ↔ ∀ point ∈ wide, point.isSurrogate = false := by
  induction wide with
  | nil => simp [encode?]
  | cons point rest ih =>
      cases point with
      | char c => simp [encode?, CodePoint.isSurrogate, ih]
      | surrogate index => simp [encode?, CodePoint.isSurrogate]

theorem ofText_of_encode? {wide : WideText} {text : Text} (h : encode? wide = some text) :
    ofText text = wide := by
  induction wide generalizing text with
  | nil =>
      cases h
      rfl
  | cons point rest ih =>
      cases point with
      | char c =>
          obtain ⟨later, hlater, rfl⟩ := Option.map_eq_some_iff.1 h
          exact congrArg (CodePoint.char c :: ·) (ih hlater)
      | surrogate index => cases h

end WideText

/-! ## Lines -/

namespace RowFile

theorem encodeLine?_ofText (cells : List Text) :
    encodeLine? (cells.map WideText.ofText) = some (renderLine cells) := by
  have hcells : (cells.map WideText.ofText).mapM WideText.encode? = some cells := by
    induction cells with
    | nil => rfl
    | cons cell rest ih => rw [List.map_cons, List.mapM_cons, WideText.encode?_ofText, ih]; rfl
  rw [encodeLine?, hcells]
  rfl

theorem encodeLines_ofText (rows : List (List Text)) :
    encodeLines (rows.map fun cells => cells.map WideText.ofText) =
      (rows.flatMap renderLine, true) := by
  induction rows with
  | nil => rfl
  | cons cells rest ih =>
      rw [List.map_cons, encodeLines, encodeLine?_ofText, ih]
      rfl

theorem isSome_encodeLine?_iff {cells : List WideText} :
    (encodeLine? cells).isSome = true ↔ ∀ cell ∈ cells, (WideText.encode? cell).isSome = true := by
  rw [encodeLine?, Option.isSome_map]
  induction cells with
  | nil => simp
  | cons cell rest ih =>
      rw [List.mapM_cons, List.forall_mem_cons, ← ih]
      cases WideText.encode? cell with
      | none => simp
      | some text => cases rest.mapM WideText.encode? <;> simp

/-- Every line is written if no cell has a surrogate in it, and not otherwise. -/
theorem encodeLines_complete_iff {rows : List (List WideText)} :
    (encodeLines rows).2 = true ↔
      ∀ cells ∈ rows, ∀ cell ∈ cells, (WideText.encode? cell).isSome = true := by
  induction rows with
  | nil => simp [encodeLines]
  | cons cells rest ih =>
      rw [List.forall_mem_cons, ← isSome_encodeLine?_iff, ← ih, encodeLines]
      cases encodeLine? cells <;> simp

end RowFile

/-! ## Tables -/

theorem SortedMap.mapValues_mapValues_eq_self {κ ν μ : Type} [Ord κ] {f : κ → ν → μ} {g : κ → μ → ν}
    {map : SortedMap κ ν} (h : ∀ entry ∈ map.entries, g entry.1 (f entry.1 entry.2) = entry.2) :
    (map.mapValues f).mapValues g = map := by
  refine SortedMap.ext_entries ?_
  simp only [SortedMap.mapValues, List.map_map, Function.comp_def]
  refine (List.map_congr_left fun entry hentry => ?_).trans (List.map_id map.entries)
  rw [h entry hentry]
  rfl

theorem WideTable.row_mapValues (keys : List Text) (record : Record) :
    row keys (record.mapValues fun _ cell => WideText.ofText cell) =
      (Table.row keys record).map WideText.ofText := by
  rw [row, Table.row, List.map_map]
  refine List.map_congr_left fun key _ => ?_
  rw [SortedMap.get?_mapValues, Function.comp_apply]
  cases record.get? key <;> rfl

theorem Table.save_widened (table : Table) (place : Place) :
    table.widened.save place = Files.writeRows place (RowFile.ofTable table) := by
  have hrows : table.widened.rows =
      (RowFile.ofTable table).rows.map fun cells => cells.map WideText.ofText := by
    simp only [WideTable.rows, RowFile.ofTable, Table.rows, Table.widened, SortedMap.mapValues,
      List.map_map]
    exact List.map_congr_left fun entry _ => WideTable.row_mapValues table.columns entry.2
  have hlines : table.widened.schema.attributes.names.map WideText.ofText :: table.widened.rows =
      ((RowFile.ofTable table).header :: (RowFile.ofTable table).rows).map
        fun cells => cells.map WideText.ofText := by
    rw [List.map_cons, ← hrows]
    rfl
  rw [WideTable.save, Files.writeWideLines, hlines, RowFile.encodeLines_ofText]
  exact bind_pure _

namespace WideTable

/-- No cell has a tab or a line break in it. -/
def IsUndelimited (table : WideTable) : Prop :=
  ∀ entry ∈ table.records.entries, ∀ cell ∈ entry.2.entries, ∀ point ∈ cell.2,
    point.isDelimiter = false

/-- No cell has a surrogate in it. -/
def IsEncodable (table : WideTable) : Prop :=
  ∀ entry ∈ table.records.entries, ∀ cell ∈ entry.2.entries, ∀ point ∈ cell.2,
    point.isSurrogate = false

theorem forall_points_widened {table : Table} {P : CodePoint → Prop} :
    (∀ entry ∈ table.widened.records.entries, ∀ cell ∈ entry.2.entries, ∀ point ∈ cell.2, P point) ↔
      ∀ entry ∈ table.records.entries, ∀ cell ∈ entry.2.entries, ∀ c ∈ cell.2, P (.char c) := by
  simp only [Table.widened, SortedMap.mapValues, WideText.ofText, List.forall_mem_map]

theorem isEncodable_widened (table : Table) : table.widened.IsEncodable :=
  forall_points_widened.2 fun _ _ _ _ _ _ => rfl

theorem isUndelimited_widened_iff {table : Table} : table.widened.IsUndelimited ↔ table.IsPlain := by
  rw [IsUndelimited, forall_points_widened]
  constructor
  · intro h id record hrecord column cell hcell
    have hcell := h _ (SortedMap.get?_eq_some_iff.1 hrecord) _ (SortedMap.get?_eq_some_iff.1 hcell)
    simp only [CodePoint.isDelimiter, Bool.or_eq_false_iff, beq_eq_false_iff_ne] at hcell
    exact ⟨fun htab => (hcell _ htab).1 rfl, fun c hc => (hcell c hc).2⟩
  · intro h entry hentry cell hcell c hc
    obtain ⟨hnoTab, hnoBreak⟩ := h _ _ (SortedMap.get?_eq_some_iff.2 hentry) _ _
      (SortedMap.get?_eq_some_iff.2 hcell)
    simp only [CodePoint.isDelimiter, Bool.or_eq_false_iff, beq_eq_false_iff_ne]
    exact ⟨fun heq => hnoTab (heq ▸ hc), hnoBreak c hc⟩

def narrowed (table : WideTable) : Table where
  schema := table.schema
  records := table.records.mapValues fun _ (record : WideRecord) =>
    record.mapValues fun _ cell => (WideText.encode? cell).getD []

theorem widened_narrowed {table : WideTable} (h : table.IsEncodable) :
    table.narrowed.widened = table := by
  have hcell : ∀ entry ∈ table.records.entries, ∀ cell ∈ entry.2.entries,
      WideText.ofText ((WideText.encode? cell.2).getD []) = cell.2 := by
    intro entry hentry cell hcell
    obtain ⟨text, htext⟩ := Option.isSome_iff_exists.1
      (WideText.isSome_encode?_iff.2 (h entry hentry cell hcell))
    rw [htext]
    exact WideText.ofText_of_encode? htext
  have hrecord : ∀ entry ∈ table.records.entries,
      (entry.2.mapValues fun _ cell => (WideText.encode? cell).getD []).mapValues
        (fun _ cell => WideText.ofText cell) = entry.2 :=
    fun entry hentry => SortedMap.mapValues_mapValues_eq_self (hcell entry hentry)
  have hrecords : table.narrowed.widened.records = table.records :=
    SortedMap.mapValues_mapValues_eq_self
      (g := fun _ (record : Record) => record.mapValues fun _ cell => WideText.ofText cell) hrecord
  exact congrArg (WideTable.mk table.schema) hrecords

end WideTable

end Relbase
