import Relbase.Proofs.Json.Documents
import Relbase.Proofs.Table.Sound
import Relbase.Proofs.Text.Lowered
import Relbase.Session

/-!
# Descriptions of tables

The metadata of a database describe its tables.  Sound schemas are read back from their
descriptions, and the whole file is parsed unless a counter has too many digits to be
written, in which case what was written of it is not parsed at all.
-/

namespace Relbase

namespace Schema

/-! ## One table -/

theorem nodup_memberNames : [nameMember, keyMember, counterMember, attributesMember].Nodup := by
  decide +kernel

theorem addElements_append {names : List Text} {set larger : AttributeSet}
    (h : larger.names = set.names ++ names) (rest : List Json) :
    addElements set (names.map .text ++ rest) = addElements larger rest := by
  induction names generalizing set with
  | nil =>
      obtain ⟨setNames, hset⟩ := set
      obtain ⟨largerNames, hlarger⟩ := larger
      simp only [List.append_nil] at h
      subst h
      rfl
  | cons name names ih =>
      have hnew : name.lower ∉ set.keys := by
        have hdistinct := larger.distinct
        rw [h, List.map_append, List.map_cons, List.nodup_append] at hdistinct
        exact fun hmem => hdistinct.2.2 _ hmem name.lower List.mem_cons_self rfl
      obtain ⟨wider, hadd, hnames⟩ := AttributeSet.exists_add hnew
      rw [List.map_cons, List.cons_append, addElements, hadd]
      exact ih (by rw [h, hnames, List.append_assoc, List.singleton_append])

theorem addElements_names {names : List Text} {set larger : AttributeSet}
    (h : larger.names = set.names ++ names) :
    addElements set (names.map .text) = .ok larger := by
  rw [← List.append_nil (names.map Json.text), addElements_append h, addElements]

/-- A description is read as the schema that it was made from, whatever the schema holds. -/
theorem ofJson_toJson (schema : Schema) : ofJson schema.toJson = .ok schema := by
  have hdistinct := nodup_memberNames
  simp only [List.nodup_cons, List.mem_cons, List.not_mem_nil, or_false, not_or] at hdistinct
  have helements : elementsOf (.list (schema.attributes.names.map .text)) =
      .ok (schema.attributes.names.map .text) := by
    cases schema.attributes.names <;> rfl
  have hattributes : addElements .empty (schema.attributes.names.map .text) = .ok schema.attributes :=
    addElements_names rfl
  simp [ofJson, toJson, membersOf, member, Assoc.get?, helements, hdistinct, hattributes,
    counterOf, bind, Except.bind, pure, Except.pure]

theorem IsSound.writable_toJson {key : Text} {schema : Schema} (h : schema.IsSound key)
    (hnext : Text.isOversized schema.nextId = false) : Json.Writable schema.toJson := by
  obtain ⟨name, hname, _⟩ := h.displayName
  rw [toJson, hname, h.primaryKey]
  refine .object nodup_memberNames fun member hmember => ?_
  simp only [List.mem_cons, List.not_mem_nil, or_false] at hmember
  rcases hmember with rfl | rfl | rfl | rfl
  · exact .text name
  · exact .text idName
  · exact .integer hnext
  · refine .list fun item hitem => ?_
    obtain ⟨column, _, rfl⟩ := List.mem_map.1 hitem
    exact .text column

theorem IsSound.unclosed_toJson {key : Text} {schema : Schema} (h : schema.IsSound key) :
    Json.Unclosed schema.toJson := by
  obtain ⟨name, hname, _⟩ := h.displayName
  rw [toJson, hname, h.primaryKey]
  refine Json.unclosed_object fun member hmember => ?_
  simp only [List.mem_cons, List.not_mem_nil, or_false] at hmember
  rcases hmember with rfl | rfl | rfl | rfl
  · exact (Json.Writable.text name).unclosed
  · exact (Json.Writable.text idName).unclosed
  · exact Json.unclosed_integer schema.nextId
  · refine Json.Writable.unclosed (.list fun item hitem => ?_)
    obtain ⟨column, _, rfl⟩ := List.mem_map.1 hitem
    exact .text column

end Schema

/-! ## All tables of a database -/

structure SoundSchemas (schemas : List (Text × Schema)) : Prop where
  distinct : (Assoc.keys schemas).Nodup
  sound : ∀ entry ∈ schemas, entry.2.IsSound entry.1

def describing (schemas : List (Text × Schema)) : List (Text × Json) :=
  [(Database.tablesMember, .object (schemas.map fun entry => (entry.1, entry.2.toJson)))]

def Database.schemas (database : Database) : List (Text × Schema) :=
  database.tables.entries.map fun entry => (entry.1, entry.2.schema)

theorem Database.get?_schemas (database : Database) (key : Text) :
    Assoc.get? key database.schemas = (database.tables.get? key).map Registration.schema :=
  Assoc.get?_mapValues (fun _ (found : Registration) => found.schema) key database.tables.entries

theorem Database.metadata_eq (database : Database) :
    database.metadata = .object (describing database.schemas) := by
  simp [metadata, describing, schemas]

def metadataText (schemas : List (Text × Schema)) : Text :=
  (Json.object (describing schemas)).render.takeWhile (· ≠ Json.gap)

def AllCounted (schemas : List (Text × Schema)) : Prop :=
  ∀ entry ∈ schemas, Text.isOversized entry.2.nextId = false

theorem Assoc.keys_map {κ ν μ : Type} (f : ν → μ) (entries : List (κ × ν)) :
    Assoc.keys (entries.map fun entry => (entry.1, f entry.2)) = Assoc.keys entries := by
  simp [Assoc.keys]

namespace SoundSchemas

variable {schemas : List (Text × Schema)}

theorem writable (h : SoundSchemas schemas) (hcounted : AllCounted schemas) :
    Json.Writable (.object (describing schemas)) := by
  refine .object (by simp [describing, Assoc.keys]) fun member hmember => ?_
  rw [List.mem_singleton.1 hmember]
  refine .object (by rw [Assoc.keys_map]; exact h.distinct) fun member hmember => ?_
  obtain ⟨entry, hentry, rfl⟩ := List.mem_map.1 hmember
  exact (h.sound entry hentry).writable_toJson (hcounted entry hentry)

theorem unclosed (h : SoundSchemas schemas) :
    ∀ member ∈ describing schemas, Json.Unclosed member.2 := by
  intro member hmember
  rw [List.mem_singleton.1 hmember]
  refine Json.unclosed_object fun member hmember => ?_
  obtain ⟨entry, hentry, rfl⟩ := List.mem_map.1 hmember
  exact (h.sound entry hentry).unclosed_toJson

theorem metadataText_of_counted (h : SoundSchemas schemas) (hcounted : AllCounted schemas) :
    metadataText schemas = (Json.object (describing schemas)).render := by
  have hgap := Json.gap_notMem_render (h.writable hcounted)
  rw [metadataText, List.takeWhile_eq_self_iff]
  exact fun c hc => decide_eq_true fun heq => hgap (heq ▸ hc)

theorem parse_metadataText (h : SoundSchemas schemas) (hcounted : AllCounted schemas) :
    Json.parse (metadataText schemas).unifyNewlines = .ok (.object (describing schemas)) := by
  rw [h.metadataText_of_counted hcounted]
  exact Json.parse_render (h.writable hcounted)

/-- A gap is left for a counter with too many digits, and for nothing else. -/
theorem counted_iff (h : SoundSchemas schemas) :
    AllCounted schemas ↔ Json.gap ∉ (Json.object (describing schemas)).render := by
  refine ⟨fun hcounted => Json.gap_notMem_render (h.writable hcounted), fun hgap entry hentry => ?_⟩
  by_contra hnext
  have hcounter (level : Nat) : Json.gap ∈ Json.renderAt level (.integer entry.2.nextId) := by
    rw [Json.renderAt, if_pos (by simpa using hnext)]
    exact List.mem_singleton_self _
  have hschema (level : Nat) : Json.gap ∈ Json.renderAt level entry.2.toJson :=
    @Json.mem_renderObject _ (Schema.counterMember, .integer entry.2.nextId) _ (by simp) hcounter
      level
  have htables (level : Nat) : Json.gap ∈ Json.renderAt level
      (.object (schemas.map fun entry => (entry.1, entry.2.toJson))) :=
    Json.mem_renderObject (List.mem_map_of_mem hentry) hschema level
  exact hgap (Json.mem_renderObject List.mem_cons_self htables 0)

theorem counted_of_parse (h : SoundSchemas schemas) {value : Json}
    (hparse : Json.parse (metadataText schemas).unifyNewlines = .ok value) : AllCounted schemas :=
  h.counted_iff.2 fun hgap => Json.parse_cut_ne_ok h.unclosed hgap value hparse

theorem getLast?_metadataText (h : SoundSchemas schemas) :
    (metadataText schemas).getLast? = some '\x7d' ↔ AllCounted schemas := by
  refine ⟨fun hlast => h.counted_iff.2 fun hgap => ?_, fun hcounted => ?_⟩
  · exact (Json.hangs_cut h.unclosed hgap).getLast?_ne hlast
  · rw [h.metadataText_of_counted hcounted]
    exact Json.getLast?_renderObject _ 0

theorem schemasOf_describing (h : SoundSchemas schemas) :
    Session.schemasOf (describing schemas) = .ok schemas := by
  have hdescriptions : Session.descriptions (describing schemas) =
      .ok (schemas.map fun entry => (entry.1, entry.2.toJson)) := by
    cases schemas with
    | nil => simp [Session.descriptions, describing, Assoc.get?, Json.isPresent]
    | cons entry rest => simp [Session.descriptions, describing, Assoc.get?, Json.isPresent]
  have hread : ∀ entries : List (Text × Schema), (∀ entry ∈ entries, entry.2.IsSound entry.1) →
      (entries.map fun entry => (entry.1, entry.2.toJson)).mapM (m := Except Failure)
        (fun entry => do return (entry.1.lower, ← Schema.ofJson entry.2)) = .ok entries := by
    intro entries hsound
    induction entries with
    | nil => rfl
    | cons entry rest ih =>
        obtain ⟨hfirst, hrest⟩ := List.forall_mem_cons.1 hsound
        obtain ⟨name, _, _, hkey⟩ := hfirst.displayName
        have hlower : entry.1.lower = entry.1 := by
          rw [← hkey, Text.lower_lower]
        rw [List.map_cons, List.mapM_cons, Schema.ofJson_toJson, ih hrest, hlower]
        rfl
  rw [Session.schemasOf, hdescriptions]
  exact hread schemas h.sound

theorem eq_of_metadataText_eq {others : List (Text × Schema)} (h : SoundSchemas schemas)
    (hothers : SoundSchemas others) (hcounted : AllCounted schemas)
    (heq : metadataText schemas = metadataText others) : others = schemas := by
  have hparse := h.parse_metadataText hcounted
  rw [heq] at hparse
  rw [hothers.parse_metadataText (hothers.counted_of_parse hparse)] at hparse
  have hmembers : describing others = describing schemas := by
    simpa using hparse
  have hschemas := hothers.schemasOf_describing
  rw [hmembers, h.schemasOf_describing] at hschemas
  exact (Except.ok.inj hschemas).symm

end SoundSchemas

/-! ## Databases from descriptions -/

theorem OrderedMap.entries_ofList {κ ν : Type} [DecidableEq κ] (entries : List (κ × ν)) :
    (ofList entries).entries = Assoc.ofList entries := by
  have hfold : ∀ (rest : List (κ × ν)) (map : OrderedMap κ ν),
      (rest.foldl (fun map entry => map.put entry.1 entry.2) map).entries =
        rest.foldl (fun map entry => Assoc.put entry.1 entry.2 map) map.entries := by
    intro rest
    induction rest with
    | nil => exact fun _ => rfl
    | cons entry rest ih => exact fun map => ih (map.put entry.1 entry.2)
  exact hfold entries empty

theorem Database.entries_ofSchemas (directory : Place) {schemas : List (Text × Schema)}
    (h : (Assoc.keys schemas).Nodup) :
    (ofSchemas directory schemas).tables.entries =
      schemas.map fun entry => (entry.1, ⟨entry.2, none⟩) := by
  rw [ofSchemas, OrderedMap.entries_ofList, Assoc.ofList_eq_self]
  rwa [Assoc.keys_map (fun schema => (⟨schema, none⟩ : Registration))]

theorem Database.schemas_ofSchemas (directory : Place) {schemas : List (Text × Schema)}
    (h : (Assoc.keys schemas).Nodup) : (ofSchemas directory schemas).schemas = schemas := by
  rw [Database.schemas, entries_ofSchemas directory h, List.map_map]
  exact List.map_id schemas

theorem Database.entries_ofSchemas_schemas (directory : Place) (database : Database) :
    (ofSchemas directory database.schemas).tables.entries =
      database.tables.entries.map fun entry => (entry.1, ⟨entry.2.schema, none⟩) := by
  have hdistinct : (Assoc.keys database.schemas).Nodup := by
    rw [schemas, Assoc.keys_map Registration.schema]
    exact database.tables.distinct
  rw [entries_ofSchemas directory hdistinct, schemas, List.map_map]
  rfl

theorem Database.get?_ofSchemas (directory : Place) (database : Database) (key : Text) :
    (ofSchemas directory database.schemas).tables.get? key =
      (database.tables.get? key).map fun (found : Registration) => ⟨found.schema, none⟩ := by
  rw [OrderedMap.get?, entries_ofSchemas_schemas]
  exact Assoc.get?_mapValues (fun _ (found : Registration) =>
    (⟨found.schema, none⟩ : Registration)) key _

end Relbase
