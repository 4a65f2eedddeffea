import Relbase.Catalog
import Relbase.Proofs.Loading

/-!
# Open databases and what they represent

An open database represents a database if its dictionaries have the same keys in the same order,
every loaded table refers to the schema of its key, and no two keys refer to one schema.  What
is done to a table or to the dictionaries then is done to the database that is represented.
-/

namespace Relbase

/-! ## Entries -/

namespace Assoc

variable {κ ν μ : Type} [DecidableEq κ]

theorem erase_mapValues (f : κ → ν → μ) (key : κ) (entries : List (κ × ν)) :
    erase key (entries.map fun entry => (entry.1, f entry.1 entry.2)) =
      (erase key entries).map fun entry => (entry.1, f entry.1 entry.2) := by
  rw [erase, List.filter_map]
  rfl

end Assoc

/-! ## Schema objects -/

namespace SchemaHeap

variable {heap : SchemaHeap} {ref other : SchemaRef} {schema : Schema}

theorem read_write_self : (heap.write ref schema).read ref = schema := if_pos rfl

theorem read_write_of_ne (h : other ≠ ref) : (heap.write ref schema).read other = heap.read other :=
  if_neg h

theorem read_made_next : (heap.made schema).read heap.next = schema := if_pos rfl

theorem read_made_of_lt (h : ref < heap.next) : (heap.made schema).read ref = heap.read ref :=
  if_neg (Nat.ne_of_lt h)

theorem write_read (heap : SchemaHeap) (ref : SchemaRef) : heap.write ref (heap.read ref) = heap := by
  have hread : (fun other => if other = ref then heap.read ref else heap.read other) = heap.read := by
    funext other
    split <;> simp_all
  rw [write, hread]

structure Makes (heap : SchemaHeap) (schemas : List (Text × Schema)) (later : SchemaHeap)
    (refs : List (Text × SchemaRef)) : Prop where
  reads : refs.map (fun entry => (entry.1, later.read entry.2)) = schemas
  fresh : ∀ entry ∈ refs, heap.next ≤ entry.2 ∧ entry.2 < later.next
  distinct : (refs.map Prod.snd).Nodup
  grows : heap.next ≤ later.next
  keeps : ∀ ref < heap.next, later.read ref = heap.read ref

theorem makes_makeAll (heap : SchemaHeap) (schemas : List (Text × Schema)) :
    heap.Makes schemas (heap.makeAll schemas).1 (heap.makeAll schemas).2 := by
  induction schemas generalizing heap with
  | nil => exact ⟨rfl, fun _ hmem => absurd hmem List.not_mem_nil, List.nodup_nil, Nat.le_refl _,
      fun _ _ => rfl⟩
  | cons entry rest ih =>
      obtain ⟨hreads, hfresh, hdistinct, hgrows, hkeeps⟩ := ih (heap.made entry.2)
      have hnext : (heap.made entry.2).next = heap.next + 1 := rfl
      rw [hnext] at hfresh hgrows hkeeps
      refine ⟨?_, ?_, ?_, Nat.le_of_succ_le hgrows, fun ref href => ?_⟩
      · simp only [makeAll, List.map_cons]
        rw [hreads, hkeeps heap.next (Nat.lt_succ_self _), read_made_next]
      · refine List.forall_mem_cons.2 ⟨⟨Nat.le_refl _, hgrows⟩, fun other hother => ?_⟩
        exact ⟨Nat.le_of_succ_le (hfresh other hother).1, (hfresh other hother).2⟩
      · refine List.nodup_cons.2 ⟨fun hmem => ?_, hdistinct⟩
        obtain ⟨other, hother, heq⟩ := List.mem_map.1 hmem
        exact Nat.ne_of_gt (hfresh other hother).1 heq
      · exact (hkeeps ref (Nat.lt_succ_of_lt href)).trans (read_made_of_lt href)

end SchemaHeap

/-! ## Representing -/

namespace OpenDatabase

def records? (tables : OrderedMap Text (Option TableObject)) (key : Text) : Option Records :=
  (tables.get? key).join.map TableObject.records

structure Represents (heap : SchemaHeap) (opened : OpenDatabase) (database : Database) : Prop where
  directory : opened.directory = database.directory
  tables : database.tables.entries = opened.schemas.entries.map fun entry =>
    (entry.1, ⟨heap.read entry.2, records? opened.tables entry.1⟩)
  keys : Assoc.keys opened.tables.entries = Assoc.keys opened.schemas.entries
  shared : ∀ key table, opened.tables.get? key = some (some table) →
    opened.schemas.get? key = some table.schema
  separate : ∀ key other ref, opened.schemas.get? key = some ref →
    opened.schemas.get? other = some ref → key = other
  made : ∀ key ref, opened.schemas.get? key = some ref → ref < heap.next
  lowered : ∀ key ref, opened.schemas.get? key = some ref → key.lower = key

variable {heap : SchemaHeap} {opened : OpenDatabase} {database : Database} {key : Text}
  {ref : SchemaRef}

namespace Represents

theorem get?_tables (h : opened.Represents heap database) (key : Text) :
    database.tables.get? key = (opened.schemas.get? key).map fun ref =>
      ⟨heap.read ref, records? opened.tables key⟩ := by
  rw [OrderedMap.get?, h.tables]
  exact Assoc.get?_mapValues
    (fun key ref => (⟨heap.read ref, records? opened.tables key⟩ : Registration)) key _

theorem isSome_schemas (h : opened.Represents heap database) (key : Text) :
    (opened.schemas.get? key).isSome = (opened.tables.get? key).isSome := by
  rw [Bool.eq_iff_iff]
  exact (Assoc.isSome_get?_iff.trans (by rw [h.keys])).trans Assoc.isSome_get?_iff.symm

/-- What the dictionary of the tables has for a key, and what the database has for it. -/
theorem entry_cases (h : opened.Represents heap database) (key : Text) :
    (opened.tables.get? key = none ∧ opened.schemas.get? key = none ∧
        database.tables.get? key = none) ∨
      (∃ ref, opened.tables.get? key = some none ∧ opened.schemas.get? key = some ref ∧
        database.tables.get? key = some ⟨heap.read ref, none⟩) ∨
      ∃ table, opened.tables.get? key = some (some table) ∧
        opened.schemas.get? key = some table.schema ∧
          database.tables.get? key = some (.ofTable (table.seen heap)) := by
  have hsome := h.isSome_schemas key
  have hget := h.get?_tables key
  rw [records?] at hget
  cases htable : opened.tables.get? key with
  | none =>
      rw [htable] at hsome
      have hnone : opened.schemas.get? key = none := by simpa using hsome
      exact .inl ⟨rfl, hnone, by rw [hget, hnone]; rfl⟩
  | some entry =>
      rw [htable] at hsome hget
      obtain ⟨ref, href⟩ := Option.isSome_iff_exists.1 hsome
      cases entry with
      | none => exact .inr (.inl ⟨ref, rfl, href, by rw [hget, href]; rfl⟩)
      | some table =>
          have hshared := h.shared key table htable
          exact .inr (.inr ⟨table, rfl, hshared, by rw [hget, hshared]; rfl⟩)

/-! ## Changes -/

theorem altered (h : opened.Represents heap database) (href : opened.schemas.get? key = some ref)
    (schema : Schema) (records : Records) :
    Represents (heap.write ref schema)
      { opened with tables := opened.tables.put key (some ⟨ref, records⟩) }
      { database with tables := database.tables.put key ⟨schema, some records⟩ } := by
  have hsome : (opened.tables.get? key).isSome = true := by
    rw [← h.isSome_schemas, href]
    rfl
  have hmem : key ∈ Assoc.keys database.tables.entries := by
    rw [← Assoc.isSome_get?_iff, ← OrderedMap.get?, h.get?_tables, href]
    rfl
  have hkey : key ∈ Assoc.keys opened.tables.entries := Assoc.isSome_get?_iff.1 hsome
  refine ⟨h.directory, ?_, ?_, fun other table htable => ?_, h.separate, h.made,
    h.lowered⟩
  · rw [OrderedMap.put]
    simp only
    rw [Assoc.put_eq_map database.tables.distinct hmem, h.tables, List.map_map]
    refine List.map_congr_left fun entry hentry => ?_
    have hentry : opened.schemas.get? entry.1 = some entry.2 := OrderedMap.get?_eq_some_iff.2 hentry
    simp only [Function.comp_apply, records?, OrderedMap.get?_put]
    by_cases heq : entry.1 = key
    · rw [heq, href] at hentry
      rw [if_pos heq, if_pos heq.symm, ← Option.some.inj hentry, SchemaHeap.read_write_self]
      rfl
    -- No other key refers to the object that is written.
    · have hne : entry.2 ≠ ref := fun hsame =>
        heq (h.separate entry.1 key ref (hsame ▸ hentry) href)
      rw [if_neg heq, if_neg (Ne.symm heq), SchemaHeap.read_write_of_ne hne]
  · refine Eq.trans ?_ h.keys
    rw [OrderedMap.put, Assoc.keys_put, if_pos hkey]
  · obtain ⟨rfl, hput⟩ | ⟨-, hold⟩ := OrderedMap.get?_put_eq_some_iff.1 htable
    · cases hput
      exact href
    · exact h.shared other table hold

theorem created (h : opened.Represents heap database) (hnew : opened.tables.get? key = none)
    (hkey : key.lower = key) (schema : Schema) :
    Represents (heap.made schema)
      { opened with
        schemas := opened.schemas.put key heap.next
        tables := opened.tables.put key (some ⟨heap.next, SortedMap.empty⟩) }
      { database with tables := database.tables.put key ⟨schema, some SortedMap.empty⟩ } := by
  have hnone : opened.schemas.get? key = none := by
    have hsome := h.isSome_schemas key
    rw [hnew] at hsome
    simpa using hsome
  have hschemas : key ∉ Assoc.keys opened.schemas.entries := Assoc.get?_eq_none_iff.1 hnone
  have htables : key ∉ Assoc.keys opened.tables.entries := Assoc.get?_eq_none_iff.1 hnew
  have hdatabase : key ∉ Assoc.keys database.tables.entries := by
    rw [← Assoc.get?_eq_none_iff, ← OrderedMap.get?, h.get?_tables, hnone]
    rfl
  -- The new reference lies above all that were made, so no key has it yet.
  have hlt : ∀ other found, opened.schemas.get? other = some found → found ≠ heap.next :=
    fun other found hfound => Nat.ne_of_lt (h.made other found hfound)
  refine ⟨h.directory, ?_, ?_, fun other table htable => ?_, fun first second found hfirst hsecond => ?_,
    fun other found hfound => ?_, fun other found hfound => ?_⟩
  · simp only [OrderedMap.put]
    rw [Assoc.put_eq_append hdatabase, Assoc.put_eq_append hschemas, List.map_append, h.tables]
    congr 1
    · refine List.map_congr_left fun entry hentry => ?_
      have hentry : opened.schemas.get? entry.1 = some entry.2 :=
        OrderedMap.get?_eq_some_iff.2 hentry
      have hne : key ≠ entry.1 := fun heq => by
        rw [← heq, hnone] at hentry
        cases hentry
      rw [SchemaHeap.read_made_of_lt (h.made _ _ hentry), records?, records?]
      simp only [OrderedMap.get?, Assoc.get?_put, if_neg hne]
    · simp only [List.map_cons, List.map_nil, SchemaHeap.read_made_next, records?, OrderedMap.get?,
        Assoc.get?_put, if_pos]
      rfl
  · simp only [OrderedMap.put]
    rw [Assoc.put_eq_append hschemas, Assoc.put_eq_append htables]
    have hkeys := h.keys
    simp only [Assoc.keys, List.map_append] at hkeys ⊢
    rw [hkeys]
    rfl
  · obtain ⟨rfl, hput⟩ | ⟨hne, hold⟩ := OrderedMap.get?_put_eq_some_iff.1 htable
    · cases hput
      exact (OrderedMap.get?_put _ _ _ _).trans (if_pos rfl)
    · exact OrderedMap.get?_put_eq_some_iff.2 (.inr ⟨hne, h.shared other table hold⟩)
  · obtain ⟨rfl, rfl⟩ | ⟨-, hfirst⟩ := OrderedMap.get?_put_eq_some_iff.1 hfirst
    · obtain ⟨heq, -⟩ | ⟨-, hsecond⟩ := OrderedMap.get?_put_eq_some_iff.1 hsecond
      · exact heq
      · exact absurd rfl (hlt _ _ hsecond)
    · obtain ⟨-, rfl⟩ | ⟨-, hsecond⟩ := OrderedMap.get?_put_eq_some_iff.1 hsecond
      · exact absurd rfl (hlt _ _ hfirst)
      · exact h.separate first second found hfirst hsecond
  · obtain ⟨-, rfl⟩ | ⟨-, hold⟩ := OrderedMap.get?_put_eq_some_iff.1 hfound
    · exact Nat.lt_succ_self _
    · exact Nat.lt_succ_of_lt (h.made other found hold)
  · obtain ⟨rfl, -⟩ | ⟨-, hold⟩ := OrderedMap.get?_put_eq_some_iff.1 hfound
    · exact hkey
    · exact h.lowered other found hold

theorem dropped (h : opened.Represents heap database) (key : Text) :
    Represents heap
      { opened with schemas := opened.schemas.erase key, tables := opened.tables.erase key }
      { database with tables := database.tables.erase key } := by
  have hfind {other : Text} {found : SchemaRef}
      (hfound : (opened.schemas.erase key).get? other = some found) :
      opened.schemas.get? other = some found :=
    (OrderedMap.get?_erase_eq_some_iff.1 hfound).2
  refine ⟨h.directory, ?_, ?_, fun other table htable => ?_, fun first second found hfirst hsecond =>
    h.separate first second found (hfind hfirst) (hfind hsecond),
    fun other found hfound => h.made other found (hfind hfound),
    fun other found hfound => h.lowered other found (hfind hfound)⟩
  · simp only [OrderedMap.erase]
    rw [h.tables, Assoc.erase_mapValues
      (fun other ref => (⟨heap.read ref, records? opened.tables other⟩ : Registration))]
    refine List.map_congr_left fun entry hentry => ?_
    have hne : key ≠ entry.1 := Ne.symm (by simpa using (List.mem_filter.1 hentry).2)
    rw [records?, records?]
    simp only [OrderedMap.get?, Assoc.get?_erase, if_neg hne]
  · have hkeys : ∀ {ν : Type} (entries : List (Text × ν)),
        Assoc.keys (Assoc.erase key entries) = (Assoc.keys entries).filter (· ≠ key) := by
      intro ν entries
      rw [Assoc.keys, Assoc.keys, Assoc.erase, List.filter_map]
      rfl
    simp only [OrderedMap.erase]
    rw [hkeys, hkeys, h.keys]
  · obtain ⟨hne, hold⟩ := OrderedMap.get?_erase_eq_some_iff.1 htable
    exact OrderedMap.get?_erase_eq_some_iff.2 ⟨hne, h.shared other table hold⟩

end Represents

theorem represents_ofSchemas {later : SchemaHeap} {schemas : List (Text × Schema)}
    {refs : List (Text × SchemaRef)} (h : heap.Makes schemas later refs)
    (hlowered : ∀ entry ∈ schemas, entry.1.lower = entry.1) (directory : Place) :
    (ofSchemas directory (.ofList refs)).Represents later (.ofSchemas directory schemas) := by
  have hentries : (OrderedMap.ofList refs).entries = Assoc.ofList refs :=
    OrderedMap.entries_ofList refs
  have hunloaded : ∀ key table, (ofSchemas directory (.ofList refs)).tables.get? key ≠
      some (some table) := by
    intro key table htable
    rw [OrderedMap.get?_eq_some_iff, ofSchemas, OrderedMap.entries_ofList] at htable
    obtain ⟨entry, -, heq⟩ := List.mem_map.1 (Assoc.mem_of_mem_ofList htable)
    cases heq
  have hnone (key : Text) : records? (ofSchemas directory (.ofList refs)).tables key = none := by
    rw [records?]
    cases htable : (ofSchemas directory (.ofList refs)).tables.get? key with
    | none => rfl
    | some entry =>
        cases entry with
        | none => rfl
        | some table => exact absurd htable (hunloaded key table)
  have hvalues : ((OrderedMap.ofList refs).entries.map Prod.snd).Nodup := by
    rw [hentries]
    obtain ⟨values, hperm, hsublist⟩ := Assoc.values_ofList_subperm refs
    exact hperm.nodup_iff.1 (h.distinct.sublist hsublist)
  refine ⟨rfl, ?_, ?_, fun key table htable => absurd htable (hunloaded key table),
    fun first second ref hfirst hsecond => ?_, fun key ref href => ?_, fun key ref href => ?_⟩
  · have hmap := Assoc.ofList_mapValues
      (fun ref => (⟨later.read ref, none⟩ : Registration)) refs
    simp only [Database.ofSchemas, hnone]
    rw [OrderedMap.entries_ofList, ← h.reads, List.map_map]
    simp only [ofSchemas, hentries]
    exact hmap
  · rw [ofSchemas, OrderedMap.entries_ofList, Assoc.ofList_eq_self]
    · rw [Assoc.keys, Assoc.keys, List.map_map]
      rfl
    · rw [Assoc.keys, List.map_map]
      exact (OrderedMap.ofList refs).distinct
  · have heq := List.inj_on_of_nodup_map hvalues (OrderedMap.get?_eq_some_iff.1 hfirst)
      (OrderedMap.get?_eq_some_iff.1 hsecond) rfl
    exact congrArg Prod.fst heq
  · have hmem := OrderedMap.get?_eq_some_iff.1 href
    rw [ofSchemas, hentries] at hmem
    exact (h.fresh _ (Assoc.mem_of_mem_ofList hmem)).2
  · have hmem := OrderedMap.get?_eq_some_iff.1 href
    rw [ofSchemas, hentries] at hmem
    refine hlowered (key, later.read ref) ?_
    rw [← h.reads]
    exact List.mem_map_of_mem (f := fun entry => (entry.1, later.read entry.2))
      (Assoc.mem_of_mem_ofList hmem)

end OpenDatabase

end Relbase
