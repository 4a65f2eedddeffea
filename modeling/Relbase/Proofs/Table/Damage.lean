import Relbase.Proofs.Table.Description
import Relbase.Proofs.Table.Failures

/-!
# Damaged descriptions and row files

Of what a description of tables or a row file may hold, little has a consequence that is not
foreseen: tables that are no object, an attribute name that is no text, a counter that is
infinite, and records without an id.  Everything else is read, or reported.
-/

namespace Relbase

open Relbase.Action

theorem bind_eq_error {ε α β : Type} {action : Except ε α} {next : α → Except ε β} {failure : ε} :
    action >>= next = .error failure ↔
      action = .error failure ∨ ∃ result, action = .ok result ∧ next result = .error failure := by
  cases action with
  | error other => simp [bind, Except.bind]
  | ok result => simp [bind, Except.bind]

theorem mapM_eq_error {ε α β : Type} {f : α → Except ε β} {items : List α} {failure : ε} :
    items.mapM f = .error failure ↔ ∃ before item after, items = before ++ item :: after ∧
      (∀ other ∈ before, ∃ result, f other = .ok result) ∧ f item = .error failure := by
  induction items with
  | nil => simp [pure, Except.pure]
  | cons first rest ih =>
      rw [List.mapM_cons, bind_eq_error]
      constructor
      · rintro (hfirst | ⟨result, hfirst, hrest⟩)
        · exact ⟨[], first, rest, rfl, nofun, hfirst⟩
        · obtain hrest | ⟨_, _, hpure⟩ := bind_eq_error.1 hrest
          · obtain ⟨before, item, after, rfl, hbefore, hitem⟩ := ih.1 hrest
            exact ⟨first :: before, item, after, rfl,
              List.forall_mem_cons.2 ⟨⟨result, hfirst⟩, hbefore⟩, hitem⟩
          · cases hpure
      · rintro ⟨before, item, after, hitems, hbefore, hitem⟩
        cases before with
        | nil =>
            cases hitems
            exact .inl hitem
        | cons other before =>
            cases hitems
            obtain ⟨⟨result, hfirst⟩, hbefore⟩ := List.forall_mem_cons.1 hbefore
            exact .inr ⟨result, hfirst, bind_eq_error.2
              (.inl (ih.2 ⟨before, item, after, rfl, hbefore, hitem⟩))⟩

/-! ## Descriptions of tables -/

/-- A description of a table with a consequence that is not foreseen. -/
inductive Json.Misdescribes : Json → Fault → Prop
  | nameNotText {members : List (Text × Json)} {display item : Json} {names : List Text}
      {rest : List Json} (hdisplay : Assoc.get? Schema.nameMember members = some display)
      (hattributes : Assoc.get? Schema.attributesMember members =
        some (.list (names.map .text ++ item :: rest)))
      (hdistinct : (names.map Text.lower).Nodup) (hitem : ∀ name, item ≠ .text name) :
      Misdescribes (.object members) .nameNotText
  | infiniteCounter {members : List (Text × Json)} {display attributes : Json} {names : List Text}
      {counter : Binary64} (hdisplay : Assoc.get? Schema.nameMember members = some display)
      (hattributes : Assoc.get? Schema.attributesMember members = some attributes)
      (helements : Schema.elementsOf attributes = .ok (names.map .text))
      (hdistinct : (names.map Text.lower).Nodup)
      (hcounter : Assoc.get? Schema.counterMember members = some (.number counter))
      (hnumber : counter.isNotANumber = false) (hinfinite : counter.isInfinite = true) :
      Misdescribes (.object members) .infiniteCounter

namespace Schema

theorem membersOf_eq_ok {json : Json} {members : List (Text × Json)} :
    membersOf json = .ok members ↔ json = .object members := by
  cases json <;> simp [membersOf, malformed]

theorem membersOf_ne_unforeseen {json : Json} {fault : Fault} :
    membersOf json ≠ .error (.unforeseen fault) := by
  cases json <;> simp [membersOf, malformed]

theorem member_eq_ok {members : List (Text × Json)} {name : Text} {value : Json} :
    member members name = .ok value ↔ Assoc.get? name members = some value := by
  rw [member]
  cases Assoc.get? name members <;> simp [malformed]

theorem member_ne_unforeseen {members : List (Text × Json)} {name : Text} {fault : Fault} :
    member members name ≠ .error (.unforeseen fault) := by
  rw [member]
  cases Assoc.get? name members <;> simp [malformed]

theorem elementsOf_ne_unforeseen {value : Json} {fault : Fault} :
    elementsOf value ≠ .error (.unforeseen fault) := by
  unfold elementsOf
  split
  · simp
  · split <;> simp [malformed]

theorem eq_list_of_elementsOf {value : Json} {items : List Json} (h : elementsOf value = .ok items)
    {item : Json} (hmem : item ∈ items) (hitem : ∀ name, item ≠ .text name) :
    value = .list items := by
  unfold elementsOf at h
  split at h
  · cases h
    cases hmem
  · split at h
    · cases h
      rfl
    · cases h
      obtain ⟨c, _, rfl⟩ := List.mem_map.1 hmem
      exact absurd rfl (hitem [c])
    · cases h
      obtain ⟨entry, _, rfl⟩ := List.mem_map.1 hmem
      exact absurd rfl (hitem entry.1)
    · simp [malformed] at h

theorem elementsOf_list (items : List Json) : elementsOf (.list items) = .ok items := by
  cases items <;> simp [elementsOf, Json.isPresent]

theorem addElements_cases (set : AttributeSet) (items : List Json) :
    (∃ (names : List Text) (larger : AttributeSet), items = names.map .text ∧
        larger.names = set.names ++ names ∧ addElements set items = .ok larger) ∨
      (∃ name, addElements set items = .error (.reported (.duplicateAttribute name))) ∨
        ∃ (names : List Text) (item : Json) (rest : List Json),
          items = names.map .text ++ item :: rest ∧
            ((set.names ++ names).map Text.lower).Nodup ∧ (∀ name, item ≠ .text name) ∧
              addElements set items = .error (.unforeseen .nameNotText) := by
  induction items generalizing set with
  | nil => exact .inl ⟨[], set, rfl, (List.append_nil _).symm, rfl⟩
  | cons first rest ih =>
      cases first with
      | text name =>
          by_cases hmem : name.lower ∈ set.keys
          · exact .inr (.inl ⟨name, by rw [addElements, AttributeSet.add_of_mem hmem]⟩)
          · obtain ⟨wider, hadd, hnames⟩ := AttributeSet.exists_add hmem
            rw [addElements, hadd]
            rcases ih wider with ⟨names, larger, rfl, hlarger, hok⟩ | hrepeated |
              ⟨names, item, later, rfl, hdistinct, hitem, hfailed⟩
            · refine .inl ⟨name :: names, larger, rfl, ?_, hok⟩
              rw [hlarger, hnames, List.append_assoc, List.singleton_append]
            · exact .inr (.inl hrepeated)
            · refine .inr (.inr ⟨name :: names, item, later, rfl, ?_, hitem, hfailed⟩)
              rwa [hnames, List.append_assoc, List.singleton_append] at hdistinct
      | _ =>
          refine .inr (.inr ⟨[], _, rest, rfl, ?_, by simp, rfl⟩)
          rw [List.append_nil]
          exact set.distinct

theorem addElements_eq_ok {set larger : AttributeSet} {items : List Json} :
    addElements set items = .ok larger ↔
      ∃ names : List Text, items = names.map .text ∧ larger.names = set.names ++ names := by
  constructor
  · intro h
    rcases addElements_cases set items with ⟨names, found, rfl, hfound, hok⟩ | ⟨_, hfailed⟩ |
      ⟨_, _, _, _, _, _, hfailed⟩
    · cases hok.symm.trans h
      exact ⟨names, rfl, hfound⟩
    · cases hfailed.symm.trans h
    · cases hfailed.symm.trans h
  · rintro ⟨names, rfl, h⟩
    exact addElements_names h

theorem addElements_eq_unforeseen {set : AttributeSet} {items : List Json} {fault : Fault} :
    addElements set items = .error (.unforeseen fault) ↔
      fault = .nameNotText ∧ ∃ (names : List Text) (item : Json) (rest : List Json),
        items = names.map .text ++ item :: rest ∧
          ((set.names ++ names).map Text.lower).Nodup ∧ ∀ name, item ≠ .text name := by
  constructor
  · intro h
    rcases addElements_cases set items with ⟨_, _, _, _, hok⟩ | ⟨_, hfailed⟩ |
      ⟨names, item, rest, rfl, hdistinct, hitem, hfailed⟩
    · cases hok.symm.trans h
    · cases hfailed.symm.trans h
    · cases hfailed.symm.trans h
      exact ⟨rfl, names, item, rest, rfl, hdistinct, hitem⟩
  · rintro ⟨rfl, names, item, rest, rfl, hdistinct, hitem⟩
    rw [@addElements_append names set ⟨set.names ++ names, hdistinct⟩ rfl]
    cases item <;> first | rfl | exact absurd rfl (hitem _)

theorem counterOf_eq_unforeseen {value : Json} {fault : Fault} :
    counterOf value = .error (.unforeseen fault) ↔ fault = .infiniteCounter ∧
      ∃ counter : Binary64, value = .number counter ∧ counter.isNotANumber = false ∧
        counter.isInfinite = true := by
  cases value with
  | number counter =>
      simp only [counterOf, Json.number.injEq, exists_eq_left']
      cases counter.isNotANumber <;> cases counter.isInfinite <;> simp [malformed, eq_comm]
  | text text =>
      rw [counterOf]
      cases Text.readInteger text with
      | ok value => simp
      | error cause => cases cause <;> simp [malformed]
  | _ => simp [counterOf, malformed]

theorem ofJson_eq_unforeseen {json : Json} {fault : Fault} :
    ofJson json = .error (.unforeseen fault) ↔ json.Misdescribes fault := by
  simp only [ofJson, bind_eq_error, membersOf_ne_unforeseen, member_ne_unforeseen,
    elementsOf_ne_unforeseen, membersOf_eq_ok, member_eq_ok, false_or]
  constructor
  · rintro ⟨members, rfl, display, hdisplay, attributes, hattributes, items, helements,
      hnames | ⟨set, hset, value, hvalue, hcounter | ⟨_, _, hpure⟩⟩⟩
    · obtain ⟨rfl, names, item, rest, rfl, hdistinct, hitem⟩ := addElements_eq_unforeseen.1 hnames
      obtain rfl := eq_list_of_elementsOf helements (by simp) hitem
      exact .nameNotText hdisplay hattributes hdistinct hitem
    · obtain ⟨names, rfl, hnames⟩ := addElements_eq_ok.1 hset
      have hdistinct : (names.map Text.lower).Nodup := by
        rw [← List.nil_append names]
        exact hnames ▸ set.distinct
      obtain ⟨rfl, counter, rfl, hnumber, hinfinite⟩ := counterOf_eq_unforeseen.1 hcounter
      exact .infiniteCounter hdisplay hattributes helements hdistinct hvalue hnumber hinfinite
    · cases hpure
  · intro h
    cases h with
    | nameNotText hdisplay hattributes hdistinct hitem =>
        exact ⟨_, rfl, _, hdisplay, _, hattributes, _, elementsOf_list _,
          .inl (addElements_eq_unforeseen.2 ⟨rfl, _, _, _, rfl, hdistinct, hitem⟩)⟩
    | infiniteCounter hdisplay hattributes helements hdistinct hcounter hnumber hinfinite =>
        exact ⟨_, rfl, _, hdisplay, _, hattributes, _, helements,
          .inr ⟨⟨_, hdistinct⟩, addElements_eq_ok.2 ⟨_, rfl, rfl⟩, _, hcounter,
            .inl (counterOf_eq_unforeseen.2 ⟨rfl, _, rfl, hnumber, hinfinite⟩)⟩⟩

end Schema

/-! ## Metadata -/

inductive TablesMisdescribed (members : List (Text × Json)) : Fault → Prop
  | notObject {tables : Json} (htables : Assoc.get? Database.tablesMember members = some tables)
      (hpresent : tables.isPresent = true) (hobject : ∀ entries, tables ≠ .object entries) :
      TablesMisdescribed members .tablesNotObject
  | table {before after : List (Text × Json)} {entry : Text × Json} {fault : Fault}
      (htables : Assoc.get? Database.tablesMember members =
        some (.object (before ++ entry :: after)))
      (hbefore : ∀ other ∈ before, ∃ schema, Schema.ofJson other.2 = .ok schema)
      (hentry : entry.2.Misdescribes fault) : TablesMisdescribed members fault

/-- A file in which no text of JSON has a surrogate that is not one of a pair. -/
def Content.IsScalar : Content → Prop
  | .text held => ∀ problem, Json.parse held.unifyNewlines = .error problem →
      problem.cause ≠ .loneSurrogate
  | .undecodable _ => True

/-- A metadata file with a consequence that is not foreseen. -/
inductive Content.IsFatalMetadata : Content → Fault → Prop
  | undecodable (bytes : List UInt8) : IsFatalMetadata (.undecodable bytes) .undecodable
  | oversizedInteger {text : Text} {problem : Json.Problem}
      (hparse : Json.parse text.unifyNewlines = .error problem)
      (hcause : problem.cause = .oversizedInteger) : IsFatalMetadata (.text text) .oversizedInteger
  | tables {text : Text} {members : List (Text × Json)} {fault : Fault}
      (hparse : Json.parse text.unifyNewlines = .ok (.object members))
      (htables : TablesMisdescribed members fault) : IsFatalMetadata (.text text) fault

namespace Session

theorem descriptions_object {members entries : List (Text × Json)}
    (h : Assoc.get? Database.tablesMember members = some (.object entries)) :
    descriptions members = .ok entries := by
  cases entries <;> simp [descriptions, h, Json.isPresent]

theorem eq_object_of_descriptions {members entries : List (Text × Json)} (hne : entries ≠ [])
    (h : descriptions members = .ok entries) :
    Assoc.get? Database.tablesMember members = some (.object entries) := by
  unfold descriptions at h
  cases htables : Assoc.get? Database.tablesMember members with
  | none =>
      simp only [htables, Option.getD_none, Json.isPresent] at h
      exact absurd (Except.ok.inj h).symm hne
  | some tables =>
      simp only [htables, Option.getD_some] at h
      split at h
      · exact absurd (Except.ok.inj h).symm hne
      · split at h <;> cases h
        rfl

theorem descriptions_eq_unforeseen {members : List (Text × Json)} {fault : Fault} :
    descriptions members = .error (.unforeseen fault) ↔ fault = .tablesNotObject ∧
      ∃ tables, Assoc.get? Database.tablesMember members = some tables ∧
        tables.isPresent = true ∧ ∀ entries, tables ≠ .object entries := by
  unfold descriptions
  cases Assoc.get? Database.tablesMember members with
  | none => simp [Json.isPresent]
  | some tables =>
      cases hpresent : tables.isPresent with
      | false => simp [hpresent]
      | true => cases tables <;> simp [hpresent, @eq_comm _ Fault.tablesNotObject]

def described (entry : Text × Json) : Except Failure (Text × Schema) := do
  return (entry.1.lower, ← Schema.ofJson entry.2)

theorem schemasOf_eq (members : List (Text × Json)) :
    schemasOf members = descriptions members >>= fun entries => entries.mapM described := rfl

theorem described_eq_error {entry : Text × Json} {failure : Failure} :
    described entry = .error failure ↔ Schema.ofJson entry.2 = .error failure := by
  cases h : Schema.ofJson entry.2 <;> simp [described, h, bind, Except.bind, pure, Except.pure]

theorem exists_described_eq_ok {entry : Text × Json} :
    (∃ result, described entry = .ok result) ↔ ∃ schema, Schema.ofJson entry.2 = .ok schema := by
  cases h : Schema.ofJson entry.2 <;> simp [described, h, bind, Except.bind, pure, Except.pure]

theorem schemasOf_eq_unforeseen {members : List (Text × Json)} {fault : Fault} :
    schemasOf members = .error (.unforeseen fault) ↔ TablesMisdescribed members fault := by
  simp only [schemasOf_eq, bind_eq_error, descriptions_eq_unforeseen, mapM_eq_error,
    described_eq_error, exists_described_eq_ok, Schema.ofJson_eq_unforeseen]
  constructor
  · rintro (⟨rfl, tables, htables, hpresent, hobject⟩ |
      ⟨_, hentries, before, entry, after, rfl, hbefore, hentry⟩)
    · exact .notObject htables hpresent hobject
    · exact .table (eq_object_of_descriptions (by simp) hentries) hbefore hentry
  · intro h
    cases h with
    | notObject htables hpresent hobject => exact .inl ⟨rfl, _, htables, hpresent, hobject⟩
    | table htables hbefore hentry =>
        exact .inr ⟨_, descriptions_object htables, _, _, _, rfl, hbefore, hentry⟩

end Session

/-! ## Row files -/

/-- A row file with a consequence that is not foreseen for a table of a schema: it is no
text, or there are records but no column of ids. -/
inductive Content.IsFatalRowFile (schema : Schema) : Content → Fault → Prop
  | undecodable (bytes : List UInt8) : IsFatalRowFile schema (.undecodable bytes) .undecodable
  | withoutIds {text line : Text} (hids : idName ∉ schema.attributes.keys)
      (hline : line ∈ text.lines.tail) (hne : line ≠ []) :
      IsFatalRowFile schema (.text text) (.missingCell idName)

theorem RowFile.rows_ne_nil {text : Text} :
    (RowFile.parse text).rows ≠ [] ↔ ∃ line ∈ text.lines.tail, line ≠ [] := by
  rw [RowFile.parse]
  cases text.lines with
  | nil => simp
  | cons header lines => simp [List.filter_eq_nil_iff]

namespace Table

theorem ensures_loadRows_withoutIds {table : Table} (path : Text) (cells : List Text)
    (rest : List (List Text)) (hids : idName ∉ table.columns) :
    (loadRows path (cells :: rest)).Ensures table (fun _ _ => False)
      fun failure _ => failure = .unforeseen (.missingCell idName) := by
  have hnone : (RowFile.recordOf table.columns cells).get? idName = none := by
    rwa [← Option.not_isSome_iff_eq_none, RowFile.isSome_get?_recordOf table.nodup_columns]
  simp only [loadRows, ensures_bind, ensures_get, hnone]
  exact rfl

theorem outcome_load_eq_unforeseen {table : Table} {path : Text} {file : RowFile} {fault : Fault} :
    ((load path file).runOn table).1 = .error (.unforeseen fault) ↔
      fault = .missingCell idName ∧ idName ∉ table.columns ∧ file.rows ≠ [] := by
  by_cases hids : idName ∈ table.columns
  · refine iff_of_false (fun h => ?_) fun h => h.2.1 hids
    exact ((ensures_load path file hids).of_error (Prod.ext h rfl)).1.reported.elim
  · obtain ⟨header, rows⟩ := file
    cases rows with
    | nil =>
        have hok : ((load path ⟨header, []⟩).runOn table).1 = .ok () := rfl
        simp [hok]
    | cons cells rest =>
        have hload : (load path ⟨header, cells :: rest⟩).Ensures table (fun _ _ => False)
            fun failure _ => failure = .unforeseen (.missingCell idName) := by
          rw [load, ensures_bind, ensures_modify]
          exact @ensures_loadRows_withoutIds { table with records := SortedMap.empty } path cells
            rest hids
        rcases hrun : (load path ⟨header, cells :: rest⟩).runOn table with ⟨failure | _, later⟩
        · rw [hload.of_error hrun]
          simp [hids, eq_comm]
        · exact (hload.of_ok hrun).elim

end Table

end Relbase
