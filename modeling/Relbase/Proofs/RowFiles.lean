import Relbase.Proofs.Loading
import Relbase.Proofs.Table.Wide

/-!
# Saving and loading the records of a table

Records are written to a row file and read back from it exactly if no cell has a tab, a line
break or a surrogate in it.  Whatever a row file holds, a table that is read from it can be
written, is read back as it was, and is then written as the same text.
-/

namespace Relbase

open Relbase.Action

/-! ## Reading what was written -/

namespace Store

variable {store later : Store} {place : Place} {content : Content}

theorem follow_insert {target : Key} (htarget : store.get? target ≠ some .directory)
    {key found : Key} {steps : List Text} (h : store.follow key steps = .ok found) :
    follow (store.insert target (.file content)) key steps = .ok found := by
  induction steps generalizing key with
  | nil => exact h
  | cons step rest ih =>
      rw [follow] at h ⊢
      cases hentry : store.get? key with
      | none => simp [hentry] at h
      | some entry =>
          cases entry with
          | file other => simp [hentry] at h
          | directory =>
              have hne : target ≠ key := fun heq => htarget (heq ▸ hentry)
              rw [SortedMap.get?_insert, if_neg hne, hentry]
              simp only [hentry] at h ⊢
              split_ifs at h ⊢ <;> exact ih h

theorem read_of_write (h : store.write place content = .ok later) :
    later.read place = .ok content := by
  obtain ⟨key, hkey, hentry, rfl⟩ := write_eq_ok.1 h
  refine read_eq_ok.2 ⟨key, ?_, by rw [SortedMap.get?_insert, if_pos rfl]⟩
  cases hsteps : place.steps with
  | none =>
      rw [locate, hsteps] at hkey
      split at hkey <;> cases hkey
  | some steps =>
      obtain ⟨hsize, hfollow⟩ := (locate_eq_ok hsteps).1 hkey
      exact (locate_eq_ok hsteps).2 ⟨hsize, follow_insert hentry hfollow⟩

theorem exists_write (h : store.write place content = .ok later) (other : Content) :
    ∃ last, store.write place other = .ok last := by
  obtain ⟨key, hkey, hentry, -⟩ := write_eq_ok.1 h
  exact ⟨_, write_eq_ok.2 ⟨key, hkey, hentry, rfl⟩⟩

/-- A file can be written in a place, over the one that may be there. -/
def TakesFile (store : Store) (place : Place) : Prop :=
  place.isMalformed = false ∧ ∃ content later, store.write place content = .ok later

theorem write_eq_self (h : store.read place = .ok content) : store.write place content = .ok store := by
  obtain ⟨key, hkey, hentry⟩ := read_eq_ok.1 h
  refine write_eq_ok.2 ⟨key, hkey, by simp [hentry], SortedMap.ext_get? fun other => ?_⟩
  rw [SortedMap.get?_insert]
  split
  · rename_i heq
    rw [← heq, hentry]
  · rfl

end Store

theorem Files.runOn_writeText_iff {store later : Store} {place : Place} {task : StorageTask}
    {text : Text} :
    (writeText task place text).runOn store = (.ok (), later) ↔
      place.isMalformed = false ∧ store.write place (.text text) = .ok later := by
  rw [writeText, change, runOn_bind, runOn_attempt]
  cases place.isMalformed with
  | true => simp
  | false =>
      cases store.write place (.text text) with
      | error cause => simp
      | ok written =>
          have hset : (set written : Action Store PUnit).runOn store = (.ok ⟨⟩, written) := rfl
          simp [hset]

/-! ## Tables for row files -/

def Text.decimal? (value : Int) : Option Text :=
  if isOversized value then none else some (ofInt value)

instance (schema : Schema) : Decidable schema.IsTabular :=
  decidable_of_iff ((schema.attributes.keys.contains idName &&
      schema.attributes.names.all fun name => name.all fun c => !Text.isLineBreak c) = true) (by
    simp only [Bool.and_eq_true, List.contains_iff_mem, List.all_eq_true, Bool.not_eq_true']
    exact ⟨fun ⟨hid, hbreak⟩ => ⟨hid, hbreak⟩, fun h => ⟨h.1, h.2⟩⟩)

namespace WideTable

/-- The keys of every record are those of the attributes, and under that of the id is the
decimal text of its number. -/
structure IsTabular (table : WideTable) : Prop where
  schema : table.schema.IsTabular
  keys : ∀ entry ∈ table.records.entries, ∀ key, key ∈ entry.2.keys ↔ key ∈ table.columns
  ids : ∀ entry ∈ table.records.entries,
    entry.2.get? idName = (Text.decimal? entry.1).map WideText.ofText

instance (table : WideTable) : Decidable table.IsTabular :=
  decidable_of_iff (table.schema.IsTabular ∧
      (∀ entry ∈ table.records.entries, entry.2.keys ⊆ table.columns ∧ table.columns ⊆ entry.2.keys) ∧
        ∀ entry ∈ table.records.entries,
          entry.2.get? idName = (Text.decimal? entry.1).map WideText.ofText)
    ⟨fun ⟨hschema, hkeys, hids⟩ => ⟨hschema, fun entry hentry _ =>
        ⟨fun h => (hkeys entry hentry).1 h, fun h => (hkeys entry hentry).2 h⟩, hids⟩,
      fun h => ⟨h.schema, fun entry hentry => ⟨fun key hkey => (h.keys entry hentry key).1 hkey,
        fun key hkey => (h.keys entry hentry key).2 hkey⟩, h.ids⟩⟩

theorem IsTabular.hasRecords {table : Table} (h : table.widened.IsTabular) : table.HasRecords := by
  intro id record hrecord
  have hentry := List.mem_map_of_mem (f := fun entry => (entry.1, entry.2.mapValues fun _ cell =>
    WideText.ofText cell)) (SortedMap.get?_eq_some_iff.1 hrecord)
  have hkeys (key : Text) : (record.get? key).isSome = true ↔ key ∈ table.columns := by
    have hcolumns := Assoc.isSome_get?_iff.trans (h.keys _ hentry key)
    rw [← SortedMap.get?, SortedMap.get?_mapValues, Option.isSome_map] at hcolumns
    exact hcolumns
  refine ⟨hkeys, Text.ofInt id, ?_⟩
  have hid := h.ids _ hentry
  rw [SortedMap.get?_mapValues] at hid
  have hid : record.get? idName = Text.decimal? id :=
    Option.map_injective WideText.ofText_injective hid
  have hsome := (hkeys idName).2 h.schema.idName_mem
  rw [hid, Text.decimal?] at hsome
  rw [hid, Text.decimal?]
  cases hsize : Text.isOversized id with
  | true => simp [hsize] at hsome
  | false => exact ⟨rfl, Text.readInteger_ofInt hsize⟩

end WideTable

/-! ## Saving and loading -/

namespace Workspace

variable {store later : Store} {place : Place} {table : Table}

theorem tableAt_of_writeRows (hschema : table.schema.IsTabular) (hrecords : table.HasRecords)
    (hplain : table.IsPlain)
    (hwrite : (Files.writeRows place (RowFile.ofTable table)).runOn store = (.ok (), later)) :
    tableAt later place table.schema = .ok table := by
  obtain ⟨hformed, hwrite⟩ := Files.runOn_writeText_iff.1 hwrite
  exact tableAt_of_readText (Files.runOn_readText_of_ok hformed (Store.read_of_write hwrite))
    hschema hrecords hplain

/-- A saved table is loaded again with the same records exactly if its cells have no tabs, line
breaks or surrogates. -/
theorem saved_and_loaded_iff (hplace : store.TakesFile place) {wide : WideTable}
    (htable : wide.IsTabular) :
    (∃ later loaded, (wide.save place).runOn store = (.ok (), later) ∧
      tableAt later place wide.schema = .ok loaded ∧ loaded.widened.records = wide.records) ↔
        wide.IsUndelimited ∧ wide.IsEncodable := by
  constructor
  -- Whatever a file holds, the cells that are read from it are plain and have no surrogates.
  · rintro ⟨later, loaded, -, hloaded, hrecords⟩
    obtain ⟨_, _, _, _, hplain⟩ := of_tableAt hloaded
    have hundelimited := WideTable.isUndelimited_widened_iff.2 hplain
    have hencodable := WideTable.isEncodable_widened loaded
    rw [WideTable.IsUndelimited, hrecords] at hundelimited
    rw [WideTable.IsEncodable, hrecords] at hencodable
    exact ⟨hundelimited, hencodable⟩
  -- Without surrogates the table is one of texts, and it is saved as such.
  · rintro ⟨hundelimited, hencodable⟩
    generalize hnarrow : wide.narrowed = table
    obtain rfl : table.widened = wide := hnarrow ▸ WideTable.widened_narrowed hencodable
    obtain ⟨hformed, content, last, hlast⟩ := hplace
    obtain ⟨later, hlater⟩ := Store.exists_write hlast (.text (RowFile.ofTable table).render)
    have hwrite : (Files.writeRows place (RowFile.ofTable table)).runOn store = (.ok (), later) :=
      Files.runOn_writeText_iff.2 ⟨hformed, hlater⟩
    exact ⟨later, table, by rw [Table.save_widened, hwrite],
      tableAt_of_writeRows htable.schema htable.hasRecords
        (WideTable.isUndelimited_widened_iff.1 hundelimited) hwrite, rfl⟩

theorem loaded_and_saved {schema : Schema} {loaded : Table} (hschema : schema.IsTabular)
    (hloaded : tableAt store place schema = .ok loaded) :
    ∃ later, (Files.writeRows place (RowFile.ofTable loaded)).runOn store = (.ok (), later) ∧
      tableAt later place schema = .ok loaded ∧
      (Files.writeRows place (RowFile.ofTable loaded)).runOn later = (.ok (), later) := by
  obtain ⟨hformed, ⟨text, hread⟩, rfl, hrecords, hplain⟩ := of_tableAt hloaded
  obtain ⟨later, hlater⟩ := Store.exists_write (Store.write_eq_self hread)
    (.text (RowFile.ofTable loaded).render)
  have hwrite : (Files.writeRows place (RowFile.ofTable loaded)).runOn store = (.ok (), later) :=
    Files.runOn_writeText_iff.2 ⟨hformed, hlater⟩
  have hagain := Store.write_eq_self (Store.read_of_write hlater)
  exact ⟨later, hwrite, tableAt_of_writeRows hschema hrecords hplain hwrite,
    Files.runOn_writeText_iff.2 ⟨hformed, hagain⟩⟩

/-- A table is saved and loaded again exactly if no cell has a tab, a line break or a surrogate in
it.  What is loaded from any row file is saved and loaded again, and saving it once more changes
nothing. -/
theorem records_saved_and_loaded (store : Store) (place : Place) :
    (store.TakesFile place → ∀ table : WideTable, table.IsTabular →
      ((∃ later loaded, (table.save place).runOn store = (.ok (), later) ∧
        tableAt later place table.schema = .ok loaded ∧ loaded.widened.records = table.records) ↔
          table.IsUndelimited ∧ table.IsEncodable)) ∧
    ∀ schema loaded, schema.IsTabular → tableAt store place schema = .ok loaded →
      ∃ later, (Files.writeRows place (RowFile.ofTable loaded)).runOn store = (.ok (), later) ∧
        tableAt later place schema = .ok loaded ∧
        (Files.writeRows place (RowFile.ofTable loaded)).runOn later = (.ok (), later) :=
  ⟨fun hplace _ htable => saved_and_loaded_iff hplace htable,
    fun _ _ hschema hloaded => loaded_and_saved hschema hloaded⟩

def pets : Table :=
  ⟨.fresh "pets".toList ⟨["Name".toList, "ID".toList], by decide +kernel⟩,
    SortedMap.ofList [(3, SortedMap.ofList [("name".toList, "Rex".toList), (idName, ['3'])]),
      (12, SortedMap.ofList [("name".toList, []), (idName, "12".toList)])]⟩

def petsPlace : Place :=
  (Place.root ['r']).child "pets.tab".toList

def unevenPets : Store :=
  Store.emptyRoot.insert ["pets.tab".toList]
    (.file (.text "Name\tID\n\nTom\t 07\tcat\r\n\t3".toList))

theorem takesFile_petsPlace : Store.emptyRoot.TakesFile petsPlace := by
  obtain ⟨later, hlater⟩ := exists_of_isOk
    (show (Store.emptyRoot.write petsPlace (.text [])).isOk = true by decide +kernel)
  exact ⟨by decide +kernel, _, later, hlater⟩

theorem records_saved_and_loaded_pets :
    (∃ later loaded, (pets.widened.save petsPlace).runOn Store.emptyRoot = (.ok (), later) ∧
      tableAt later petsPlace pets.schema = .ok loaded ∧
        loaded.widened.records = pets.widened.records) ∧
    ∃ loaded later, tableAt unevenPets petsPlace pets.schema = .ok loaded ∧
      (Files.writeRows petsPlace (RowFile.ofTable loaded)).runOn unevenPets = (.ok (), later) ∧
      tableAt later petsPlace pets.schema = .ok loaded := by
  have htabular : pets.widened.IsTabular := by decide +kernel
  constructor
  · exact ((records_saved_and_loaded Store.emptyRoot petsPlace).1 takesFile_petsPlace pets.widened
      htabular).2 ⟨by unfold WideTable.IsUndelimited; decide +kernel,
        WideTable.isEncodable_widened pets⟩
  · obtain ⟨loaded, hloaded⟩ := exists_of_isOk
      (show (tableAt unevenPets petsPlace pets.schema).isOk = true by decide +kernel)
    obtain ⟨later, hwrite, hagain, _⟩ := (records_saved_and_loaded unevenPets petsPlace).2
      pets.schema loaded htabular.schema hloaded
    exact ⟨loaded, later, hloaded, hwrite, hagain⟩

/-- A pet whose name is a surrogate. -/
def markedPet : WideTable :=
  ⟨.fresh "pets".toList ⟨[idName, "name".toList], by decide +kernel⟩,
    SortedMap.ofList [(1, SortedMap.ofList [(idName, WideText.ofText ['1']),
      ("name".toList, [.surrogate 0])])]⟩

/-- Neither a tab nor a line break keeps the table from being saved. -/
theorem markedPet_not_saved :
    markedPet.IsTabular ∧ markedPet.IsUndelimited ∧ Store.emptyRoot.TakesFile petsPlace ∧
      ¬ ∃ later loaded, (markedPet.save petsPlace).runOn Store.emptyRoot = (.ok (), later) ∧
        tableAt later petsPlace markedPet.schema = .ok loaded ∧
          loaded.widened.records = markedPet.records := by
  refine ⟨by decide +kernel, by unfold WideTable.IsUndelimited; decide +kernel, takesFile_petsPlace, ?_⟩
  rintro ⟨later, loaded, hsave, -⟩
  have hfails : ((markedPet.save petsPlace).runOn Store.emptyRoot).1.isOk = false := by
    decide +kernel
  rw [hsave] at hfails
  cases hfails

end Workspace

end Relbase
