import Relbase.Proofs.Table.Cells

/-!
# Alterations of a table

Attributes are added at the end and dropped from anywhere, in any order and under any spelling,
and some of the calls fail.  However many there are, an attribute that none of them drops stays
what it is, in its place among those that stay; what is new stands behind them and is empty; and
no record comes, goes or gets another id.
-/

namespace Relbase

open Relbase.Action

namespace Table

variable {table middle later : Table}

/-! ## Attributes that stay -/

inductive Alteration where
  | add (name : Text)
  | drop (name : Text)
  deriving DecidableEq, Repr

namespace Alteration

def call : Alteration → Call
  | .add name => .addAttribute name
  | .drop name => .dropAttribute name

/-- Whether an alteration leaves the attribute with a given key where it is.  The id withstands
being dropped. -/
def spares (key : Text) : Alteration → Bool
  | .add _ => true
  | .drop name => key == idName || name.lower != key

theorem spares_drop_iff {name key : Text} :
    (Alteration.drop name).spares key = true ↔ key = idName ∨ name.lower ≠ key := by
  simp [spares]

end Alteration

def isSpared (alterations : List Alteration) (key : Text) : Bool :=
  alterations.all (·.spares key)

def altered (table : Table) (alterations : List Alteration) : Table :=
  table.afterCalls (alterations.map Alteration.call)

@[simp] theorem isSpared_nil (key : Text) : isSpared [] key = true := rfl

@[simp] theorem isSpared_cons (alteration : Alteration) (rest : List Alteration) (key : Text) :
    isSpared (alteration :: rest) key = (alteration.spares key && isSpared rest key) := rfl

theorem isSpared_idName (alterations : List Alteration) : isSpared alterations idName = true := by
  refine List.all_eq_true.2 fun alteration _ => ?_
  cases alteration <;> simp [Alteration.spares]

@[simp] theorem altered_nil (table : Table) : table.altered [] = table := rfl

theorem altered_append (table : Table) (first second : List Alteration) :
    table.altered (first ++ second) = (table.altered first).altered second := by
  simp [altered, afterCalls]

structure HasId (table : Table) : Prop where
  primaryKey : table.schema.primaryKey = .text idName
  first : ∃ rest, table.attributes.names = idName :: rest

theorem mem_columns_of_mem_names {name : Text} (h : name ∈ table.attributes.names) :
    name.lower ∈ table.columns :=
  List.mem_map_of_mem h

/-! ## What alterations do -/

/-- What alterations make of a table, and the attributes that are new in it. -/
structure Alters (table : Table) (alterations : List Alteration) (later : Table)
    (added : List Text) : Prop where
  /-- What is spared keeps its spelling and its order, and what is new comes after it. -/
  names : later.attributes.names =
    (table.attributes.names.filter fun name => isSpared alterations name.lower) ++ added
  asked : ∀ name ∈ added, .add name ∈ alterations
  /-- An attribute that is asked for is there unless it is dropped again. -/
  present : ∀ before name after, alterations = before ++ .add name :: after →
    isSpared after name.lower = true → name.lower ∈ later.columns
  ids : later.ids = table.ids
  cells : ∀ id record, later.records.get? id = some record →
    ∃ old, table.records.get? id = some old ∧
      (∀ name ∈ table.attributes.names, isSpared alterations name.lower = true →
        record.get? name.lower = old.get? name.lower) ∧
      ∀ name ∈ added, record.get? name.lower = some []
  schema : later.schema = { table.schema with attributes := later.attributes }

theorem Alters.refl (table : Table) : table.Alters [] table [] where
  names := by simp
  asked := by simp
  present := by simp
  ids := rfl
  cells id record hrecord := ⟨record, hrecord, by simp⟩
  schema := rfl

theorem Alters.trans {alteration : Alteration} {rest : List Alteration} {first second : List Text}
    (h : table.Alters [alteration] middle first) (hrest : middle.Alters rest later second) :
    table.Alters (alteration :: rest) later
      ((first.filter fun name => isSpared rest name.lower) ++ second) where
  names := by
    rw [hrest.names, h.names]
    simp [List.filter_filter, Bool.and_comm]
  asked name hname := by
    rcases List.mem_append.1 hname with hname | hname
    · simpa using .inl (List.mem_singleton.1 (h.asked name (List.mem_of_mem_filter hname)))
    · exact List.mem_cons_of_mem _ (hrest.asked name hname)
  present before name after hsplit hspared := by
    cases before with
    | nil =>
        obtain ⟨rfl, rfl⟩ := List.cons.inj hsplit
        have hname : name.lower ∈ middle.columns := h.present [] name [] rfl rfl
        obtain ⟨spelled, hspelled, hlower⟩ := List.mem_map.1 hname
        rw [← hlower] at hspared ⊢
        apply mem_columns_of_mem_names
        rw [hrest.names]
        exact List.mem_append_left _ (List.mem_filter.2 ⟨hspelled, hspared⟩)
    | cons _ before =>
        exact hrest.present before name after (List.cons.inj hsplit).2 hspared
  ids := hrest.ids.trans h.ids
  cells id record hrecord := by
    obtain ⟨between, hbetween, hkept, hnew⟩ := hrest.cells id record hrecord
    obtain ⟨old, hold, hkeptBefore, hnewBefore⟩ := h.cells id between hbetween
    refine ⟨old, hold, fun name hname hspared => ?_, fun name hname => ?_⟩
    · simp only [isSpared_cons, Bool.and_eq_true] at hspared
      have hmiddle : name ∈ middle.attributes.names := by
        simp [h.names, hname, hspared.1]
      rw [hkept name hmiddle hspared.2]
      exact hkeptBefore name hname (by simp [hspared.1])
    · rcases List.mem_append.1 hname with hname | hname
      · obtain ⟨hname, hspared⟩ := List.mem_filter.1 hname
        have hmiddle : name ∈ middle.attributes.names := by simp [h.names, hname]
        rw [hkept name hmiddle hspared]
        exact hnewBefore name hname
      · exact hnew name hname
  schema := by
    rw [hrest.schema, h.schema]

theorem Alters.hasId {alterations : List Alteration} {added : List Text}
    (h : table.Alters alterations later added) (hid : table.HasId) : later.HasId where
  primaryKey := by
    rw [h.schema]
    exact hid.primaryKey
  first := by
    obtain ⟨rest, hnames⟩ := hid.first
    rw [h.names, hnames]
    simp [lower_idName, isSpared_idName]

/-! ## One alteration -/

theorem ids_restructured (table : Table) (attributes : AttributeSet) (change : Record → Record) :
    (table.restructured attributes change).ids = table.ids := by
  simp [ids, restructured, SortedMap.keys, SortedMap.mapValues, Assoc.keys, Function.comp_def]

theorem ensures_addAttribute_refusal (table : Table) (name : Text) :
    (addAttribute name).Ensures table (fun _ _ => True) fun _ _ => name.lower ∈ table.columns := by
  simp only [addAttribute, AttributeSet.add, ensures_bind, ensures_get]
  by_cases h : name.lower ∈ table.attributes.keys
  · simp only [dif_pos h]
    exact h
  · simp only [dif_neg h]
    trivial

theorem HasId.ensures_dropAttribute_refusal (h : table.HasId) (name : Text) :
    (dropAttribute name).Ensures table (fun _ _ => True)
      fun _ _ => name.lower ∉ table.columns ∨ name.lower = idName := by
  simp only [dropAttribute, ensures_bind, ensures_get]
  split
  · rename_i hmissing
    simp only [Bool.not_eq_true', ← Bool.not_eq_true, AttributeSet.contains_iff] at hmissing
    exact .inl hmissing
  · split
    · rename_i hkey
      exact .inr (by simpa [Schema.isKey, h.primaryKey] using hkey)
    · trivial

theorem Alters.of_refusal {alteration : Alteration}
    (hspared : ∀ name ∈ table.attributes.names, alteration.spares name.lower = true)
    (hpresent : ∀ name, alteration = .add name → name.lower ∈ table.columns) :
    table.Alters [alteration] table [] where
  names := by
    rw [List.append_nil, List.filter_eq_self.2]
    simpa using hspared
  asked := by simp
  present before name after hsplit _ := by
    have hmem : Alteration.add name ∈ [alteration] := hsplit ▸ by simp
    exact hpresent name (List.mem_singleton.1 hmem).symm
  ids := rfl
  cells id record hrecord := ⟨record, hrecord, by simp⟩
  schema := rfl

theorem alters_add (table : Table) (name : Text) :
    (addAttribute name).Ensures table (fun _ later => table.Alters [.add name] later [name])
      fun _ later => later = table ∧ table.Alters [.add name] later [] := by
  refine ((ensures_addAttribute table name).and (ensures_addAttribute_refusal table name)).mono
    (fun _ later hadded => ?_) fun _ later hrefused => ?_
  · obtain ⟨⟨attributes, hadd, rfl⟩, -⟩ := hadded
    obtain ⟨hnames, hnew⟩ := AttributeSet.names_of_add hadd
    have hall : (table.attributes.names.filter fun other => isSpared [.add name] other.lower) =
        table.attributes.names :=
      List.filter_eq_self.2 fun _ _ => rfl
    refine ⟨hnames.trans (congrArg (· ++ [name]) hall.symm), by simp,
      fun before other after hsplit _ => ?_, ids_restructured .., fun id record hrecord => ?_, rfl⟩
    · have hmem : Alteration.add other ∈ [Alteration.add name] := hsplit ▸ by simp
      have hother : other ∈ attributes.names := by
        rw [hnames]
        exact List.mem_append_right _ (by simpa using hmem)
      exact List.mem_map_of_mem hother
    · obtain ⟨old, hold, rfl⟩ := exists_of_restructured hrecord
      refine ⟨old, hold, fun other hother _ => ?_, by simp⟩
      have hne : name.lower ≠ other.lower := fun heq =>
        hnew (heq ▸ mem_columns_of_mem_names hother)
      simp [hne]
  · obtain ⟨⟨-, rfl⟩, hpresent⟩ := hrefused
    refine ⟨rfl, .of_refusal (fun _ _ => rfl) fun other hother => ?_⟩
    cases hother
    exact hpresent

theorem HasId.alters_drop (h : table.HasId) (name : Text) :
    (dropAttribute name).Ensures table (fun _ later => table.Alters [.drop name] later [])
      fun _ later => later = table ∧ table.Alters [.drop name] later [] := by
  refine ((ensures_dropAttribute table name).and (h.ensures_dropAttribute_refusal name)).mono
    (fun _ later hdropped => ?_) fun _ later hrefused => ?_
  · obtain ⟨⟨hkey, rfl⟩, -⟩ := hdropped
    have hid := Schema.ne_idName h.primaryKey hkey
    -- The id is not what has been dropped, so it need not be told apart.
    have hspared (key : Text) : isSpared [.drop name] key = decide (key ≠ name.lower) := by
      rw [Bool.eq_iff_iff, isSpared_cons, isSpared_nil, Bool.and_true, Alteration.spares_drop_iff,
        decide_eq_true_iff, ne_comm]
      exact or_iff_right_of_imp fun hkey => hkey ▸ hid.symm
    refine ⟨?_, by simp, fun before other after hsplit _ => ?_, ids_restructured ..,
      fun id record hrecord => ?_, rfl⟩
    · simp only [hspared, List.append_nil]
      rfl
    · have hmem : Alteration.add other ∈ [Alteration.drop name] := hsplit ▸ by simp
      simp at hmem
    · obtain ⟨old, hold, rfl⟩ := exists_of_restructured hrecord
      refine ⟨old, hold, fun other _ hother => ?_, by simp⟩
      rw [hspared, decide_eq_true_iff] at hother
      simp [hother.symm]
  · obtain ⟨⟨-, rfl⟩, hrefused⟩ := hrefused
    refine ⟨rfl, .of_refusal (fun other hother => ?_) (by simp)⟩
    have hcolumn := mem_columns_of_mem_names hother
    rw [Alteration.spares_drop_iff]
    rcases hrefused with hmissing | hid
    · exact .inr fun heq => hmissing (heq ▸ hcolumn)
    · rw [hid, eq_comm]
      exact em _

/-! ## Sequences of alterations -/

theorem HasId.ensures_alters (h : table.HasId) (alteration : Alteration) :
    alteration.call.run.Ensures table
      (fun _ later => ∃ added, table.Alters [alteration] later added)
      fun _ later => later = table ∧ ∃ added, table.Alters [alteration] later added := by
  cases alteration with
  | add name =>
      rw [Alteration.call, Call.run, ensures_map]
      exact (table.alters_add name).mono (fun _ _ hlater => ⟨_, hlater⟩)
        fun _ _ hlater => ⟨hlater.1, _, hlater.2⟩
  | drop name =>
      rw [Alteration.call, Call.run, ensures_map]
      exact (h.alters_drop name).mono (fun _ _ hlater => ⟨_, hlater⟩)
        fun _ _ hlater => ⟨hlater.1, _, hlater.2⟩

theorem HasId.exists_alters_next (h : table.HasId) (alteration : Alteration) :
    ∃ added, table.Alters [alteration] (table.next alteration.call) added :=
  ((h.ensures_alters alteration).mono (fun _ _ hlater => hlater)
    fun _ _ hlater => hlater.2).finally

theorem HasId.next_of_failure (h : table.HasId) {alteration : Alteration} {failure : Failure}
    (hfailure : (alteration.call.run.runOn table).1 = .error failure) :
    table.next alteration.call = table :=
  ((h.ensures_alters alteration).of_error (Prod.ext hfailure rfl)).1

theorem HasId.exists_alters (h : table.HasId) (alterations : List Alteration) :
    ∃ added, table.Alters alterations (table.altered alterations) added := by
  induction alterations generalizing table with
  | nil => exact ⟨[], .refl table⟩
  | cons alteration rest ih =>
      obtain ⟨first, hfirst⟩ := h.exists_alters_next alteration
      obtain ⟨second, hsecond⟩ := ih (hfirst.hasId h)
      exact ⟨_, hfirst.trans hsecond⟩

theorem fillsAll_next (table : Table) (alteration : Alteration) :
    table.FillsAll (table.next alteration.call) := by
  cases alteration with
  | add name =>
      apply Ensures.finally (P := fun later => table.FillsAll later)
      rw [Alteration.call, Call.run, ensures_map]
      exact table.keepsCells_addAttribute name
  | drop name =>
      apply Ensures.finally (P := fun later => table.FillsAll later)
      rw [Alteration.call, Call.run, ensures_map]
      exact table.keepsCells_dropAttribute name

instance (table : Table) : Decidable table.IsFilled :=
  decidable_of_iff (∀ entry ∈ table.records.entries,
      entry.2.keys ⊆ table.columns ∧ table.columns ⊆ entry.2.keys) <| by
    simp only [IsFilled, SortedMap.get?_eq_some_iff, iff_iff_implies_and_implies, forall_and,
      Prod.forall, List.subset_def]

theorem FillsAll.isFilled (h : table.FillsAll later) (hfilled : table.IsFilled) :
    later.IsFilled := by
  obtain ⟨hconfined, hlacks⟩ := isFilled_iff.1 hfilled
  refine isFilled_iff.2 ⟨h.confined hconfined, fun id column hlater => ?_⟩
  rcases h.lacks id column hlater with hbefore | hleft
  · exact hlacks id column hbefore
  · exact hleft

theorem IsFilled.altered (h : table.IsFilled) (alterations : List Alteration) :
    (table.altered alterations).IsFilled := by
  induction alterations generalizing table with
  | nil => exact h
  | cons alteration rest ih => exact ih ((table.fillsAll_next alteration).isFilled h)

/-- However the attributes of a table are altered, the id stays in front and the records have
just the cells of the attributes; from any moment on, attributes that are not dropped any more
stay what they are and new ones come empty behind them; and what fails does nothing. -/
theorem alterations_keep_rest (hfilled : table.IsFilled) (hid : table.HasId)
    (before after : List Alteration) :
    (table.altered before).HasId ∧ (table.altered before).IsFilled ∧
      (∃ added,
        (table.altered before).Alters after (table.altered (before ++ after)) added) ∧
      ∀ alteration failure,
        (alteration.call.run.runOn (table.altered before)).1 = .error failure →
          table.altered (before ++ [alteration]) = table.altered before := by
  obtain ⟨added, halters⟩ := hid.exists_alters before
  have hbefore : (table.altered before).HasId := halters.hasId hid
  simp only [altered_append]
  exact ⟨hbefore, hfilled.altered before, hbefore.exists_alters after,
    fun alteration failure hfailure => hbefore.next_of_failure hfailure⟩

def residents : Table where
  schema := { Schema.fresh "people".toList
    ⟨[idName, "Name".toList, "Town".toList], by decide +kernel⟩ with nextId := 8 }
  records := .ofList
    [(2, .ofList [(idName, ['2']), ("name".toList, "Bob".toList), ("town".toList, "Bath".toList)]),
      (7, .ofList [(idName, ['7']), ("name".toList, "Dan".toList), ("town".toList, [])])]

/-- An attribute that goes and comes back in another spelling, the id that does not go, and
others that fail. -/
def respelling : List Alteration :=
  [.drop "NAME".toList, .add "town".toList, .drop "ID".toList, .add "nAme".toList,
    .drop "city".toList]

theorem alterations_keep_rest_respelling :
    residents.HasId ∧ residents.IsFilled ∧
      (residents.altered respelling).HasId ∧ (residents.altered respelling).IsFilled ∧
      (residents.altered respelling).ids = [2, 7] ∧
      (residents.altered respelling).attributes.names =
        [idName, "Town".toList, "nAme".toList] ∧
      (residents.altered respelling).values "town".toList = .ok ["Bath".toList, []] ∧
      (residents.altered respelling).values "NAME".toList = .ok [[], []] := by
  have hid : residents.HasId := ⟨rfl, _, rfl⟩
  have hfilled : residents.IsFilled := by decide +kernel
  obtain ⟨hlater, hlaterFilled, -, -⟩ := alterations_keep_rest hfilled hid respelling []
  obtain ⟨-, -, ⟨added, halters⟩, -⟩ := alterations_keep_rest hfilled hid [] respelling
  exact ⟨hid, hfilled, hlater, hlaterFilled, halters.ids.trans (by decide +kernel),
    by decide +kernel, by decide +kernel, by decide +kernel⟩

end Table

end Relbase
