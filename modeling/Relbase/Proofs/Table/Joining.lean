import Mathlib.Data.List.ProdSigma
import Relbase.Proofs.Table.Answers
import Relbase.Proofs.Table.Appending
import Relbase.Proofs.Table.Selecting

/-!
# Joining

A join has a row for every pair of records that agree in the joined attributes, by the order
of the ids of the left records and then of the right ones.  It fails only where two of its
names are the same, which takes two tables of one name.
-/

namespace Relbase

open Relbase.Action

namespace Table

variable {left right : Table} {leftOn rightOn : Text}

/-! ## What a join is -/

def agree (leftOn rightOn : Text) (pair : (Int × Record) × (Int × Record)) : Bool :=
  pair.1.2.get? leftOn.lower = pair.2.2.get? rightOn.lower

def agreeing (left right : Table) (leftOn rightOn : Text) :
    List ((Int × Record) × (Int × Record)) :=
  (left.records.entries ×ˢ right.records.entries).filter (agree leftOn rightOn)

def carriedNames (table : Table) (on : Text) : List Text :=
  (table.attributes.names.filter fun name => name.lower ≠ idName ∧ name.lower ≠ on.lower).map
    fun name => table.schema.displayName.display ++ '.' :: name

def carriedCells (table : Table) (on : Text) (record : Record) : List Text :=
  (table.attributes.names.filter fun name => name.lower ≠ idName ∧ name.lower ≠ on.lower).map
    fun name => (record.get? name.lower).getD []

/-- The names of a join, and a numbered row for each pair of records that agree. -/
def joined (left right : Table) (leftOn rightOn : Text) : ResultSet where
  names := idName :: (left.carriedNames leftOn ++ right.carriedNames rightOn)
  rows := ((agreeing left right leftOn rightOn).zipIdx 1).map fun entry =>
    Text.ofInt entry.2 ::
      (left.carriedCells leftOn entry.1.1.2 ++ right.carriedCells rightOn entry.1.2.2)

theorem pairwise_agreeing (left right : Table) (leftOn rightOn : Text) :
    (agreeing left right leftOn rightOn).Pairwise fun first second =>
      first.1.1 < second.1.1 ∨ first.1.1 = second.1.1 ∧ first.2.1 < second.2.1 := by
  refine List.Pairwise.sublist List.filter_sublist ?_
  have hleft := List.pairwise_map.1 left.pairwise_keys
  have hright := List.pairwise_map.1 right.pairwise_keys
  generalize left.records.entries = entries at hleft
  induction entries with
  | nil => exact List.Pairwise.nil
  | cons entry rest ih =>
      obtain ⟨hentry, hrest⟩ := List.pairwise_cons.1 hleft
      rw [List.product_cons, List.pairwise_append]
      refine ⟨List.pairwise_map.2 (hright.imp fun hlt => .inr ⟨rfl, hlt⟩), ih hrest,
        fun first hfirst second hsecond => .inl ?_⟩
      obtain ⟨_, _, rfl⟩ := List.mem_map.1 hfirst
      exact hentry second.1 (List.mem_product.1 hsecond).1

/-! ## Joining records -/

theorem carriedNames_eq (table : Table) (on : Text) :
    table.carriedNames on = (table.carried on).map table.qualified := rfl

theorem carriedCells_eq (table : Table) (on : Text) (record : Record) :
    table.carriedCells on record =
      (table.carried on).map fun name => (record.get? name.lower).getD [] := rfl

def joinCells (table : Table) (on : Text) (record : Record) : List (Text × Text) :=
  (table.carried on).map fun name => (table.qualified name, (record.get? name.lower).getD [])

theorem qualifiedCells_eq {table : Table} {record : Record} (on : Text)
    (hrecord : ∀ column ∈ table.columns, (record.get? column).isSome = true) :
    table.qualifiedCells (table.carried on) record = .ok (table.joinCells on record) := by
  refine mapM_eq_ok_map fun name hname => ?_
  have hcolumn : name.lower ∈ table.columns :=
    List.mem_map_of_mem (List.mem_of_mem_filter hname)
  obtain ⟨value, hvalue⟩ := Option.isSome_iff_exists.1 (hrecord name.lower hcolumn)
  rw [cell, hvalue]
  rfl

def pairCells (left right : Table) (leftOn rightOn : Text)
    (pair : (Int × Record) × (Int × Record)) : List (Text × Text) :=
  left.joinCells leftOn pair.1.2 ++ right.joinCells rightOn pair.2.2

theorem map_fst_pairCells (left right : Table) (leftOn rightOn : Text)
    (pair : (Int × Record) × (Int × Record)) :
    (pairCells left right leftOn rightOn pair).map Prod.fst =
      left.carriedNames leftOn ++ right.carriedNames rightOn := by
  simp only [pairCells, joinCells, carriedNames_eq, List.map_append, List.map_map]
  rfl

theorem map_snd_pairCells (left right : Table) (leftOn rightOn : Text)
    (pair : (Int × Record) × (Int × Record)) :
    (pairCells left right leftOn rightOn pair).map Prod.snd =
      left.carriedCells leftOn pair.1.2 ++ right.carriedCells rightOn pair.2.2 := by
  simp only [pairCells, joinCells, carriedCells_eq, List.map_append, List.map_map]
  rfl

theorem runOn_joinRecord {result : Table} {leftEntry : Int × Record}
    (hleft : ∀ column ∈ left.columns, (leftEntry.2.get? column).isSome = true)
    (hleftOn : leftOn.lower ∈ left.columns) (hrightOn : rightOn.lower ∈ right.columns)
    {entries : List (Int × Record)}
    (hright : ∀ entry ∈ entries, ∀ column ∈ right.columns, (entry.2.get? column).isSome = true)
    (hnames : ∀ name ∈ left.carriedNames leftOn ++ right.carriedNames rightOn,
      result.attributes.contains name = true) :
    (joinRecord left right leftOn rightOn leftEntry.2 (entries.map Prod.snd)).runOn result =
      (.ok (), result.appendedAll (((entries.map (leftEntry, ·)).filter (agree leftOn rightOn)).map
        (pairCells left right leftOn rightOn))) := by
  induction entries generalizing result with
  | nil => rfl
  | cons entry rest ih =>
      obtain ⟨hentry, hrest⟩ := List.forall_mem_cons.1 hright
      obtain ⟨leftValue, hleftValue⟩ := Option.isSome_iff_exists.1 (hleft _ hleftOn)
      obtain ⟨rightValue, hrightValue⟩ := Option.isSome_iff_exists.1 (hentry _ hrightOn)
      have hleftCell : cell leftEntry.2 leftOn.lower = .ok leftValue := by rw [cell, hleftValue]
      have hrightCell : cell entry.2 rightOn.lower = .ok rightValue := by rw [cell, hrightValue]
      have hagrees : agree leftOn rightOn (leftEntry, entry) = true ↔ leftValue = rightValue := by
        simp [agree, hleftValue, hrightValue]
      rw [List.map_cons, joinRecord, hleftCell, hrightCell, List.map_cons, List.filter_cons]
      simp only [joinRecord.crashing, pure_bind, hagrees]
      by_cases hagree : leftValue = rightValue
      · have hcells : ∀ found ∈ pairCells left right leftOn rightOn (leftEntry, entry),
            result.attributes.contains found.1 = true := by
          intro found hfound
          apply hnames
          rw [← map_fst_pairCells left right leftOn rightOn (leftEntry, entry)]
          exact List.mem_map_of_mem hfound
        rw [if_pos hagree, if_pos hagree, qualifiedCells_eq leftOn hleft,
          qualifiedCells_eq rightOn hentry]
        simp only [pure_bind]
        exact (runOn_bind_of_ok (runOn_appendRecord result hcells)).trans (ih hrest hnames)
      · rw [if_neg hagree, if_neg hagree]
        exact ih hrest hnames

theorem runOn_joinRecords (result : Table) (hright : right.IsTotal)
    (hleftOn : leftOn.lower ∈ left.columns) (hrightOn : rightOn.lower ∈ right.columns)
    {entries : List (Int × Record)}
    (hleft : ∀ entry ∈ entries, ∀ column ∈ left.columns, (entry.2.get? column).isSome = true)
    (hnames : ∀ name ∈ left.carriedNames leftOn ++ right.carriedNames rightOn,
      result.attributes.contains name = true) :
    (joinRecords left right leftOn rightOn (entries.map Prod.snd)).runOn result =
      (.ok (), result.appendedAll (((entries ×ˢ right.records.entries).filter
        (agree leftOn rightOn)).map (pairCells left right leftOn rightOn))) := by
  induction entries generalizing result with
  | nil => rfl
  | cons entry rest ih =>
      obtain ⟨hentry, hrest⟩ := List.forall_mem_cons.1 hleft
      rw [List.map_cons, joinRecords, runOn_bind_of_ok
        (runOn_joinRecord hentry hleftOn hrightOn hright hnames), ih _ hrest ?_, List.product_cons,
        List.filter_append, List.map_append, appendedAll_append]
      rw [attributes_appendedAll]
      exact hnames

def joinStart (attributes : AttributeSet) : Table :=
  ofSchema (.fresh "join".toList attributes)

theorem isCounted_joinStart (attributes : AttributeSet) : (joinStart attributes).IsCounted :=
  fun _ _ hrecord => by cases hrecord

theorem rows_joined {attributes : AttributeSet}
    (hnames : attributes.names = (joined left right leftOn rightOn).names) :
    ((joinStart attributes).appendedAll ((agreeing left right leftOn rightOn).map
      (pairCells left right leftOn rightOn))).rows attributes.names =
        (joined left right leftOn rightOn).rows := by
  have hrow : ∀ cells ∈ (agreeing left right leftOn rightOn).map
      (pairCells left right leftOn rightOn), ∀ id,
        row (attributes.names.map Text.lower) (numbered id cells) =
          Text.ofInt id :: cells.map Prod.snd := by
    intro cells hcells id
    obtain ⟨pair, -, rfl⟩ := List.mem_map.1 hcells
    have hpair : attributes.names =
        idName :: (pairCells left right leftOn rightOn pair).map Prod.fst := by
      rw [hnames, joined, map_fst_pairCells]
    have hdistinct := attributes.distinct
    rw [hpair] at hdistinct ⊢
    exact row_numbered id hdistinct
  have hnext : (joinStart attributes).schema.nextId = ((1 : Nat) : Int) := rfl
  have hrows := (isCounted_joinStart attributes).rows_appendedAll hnext hrow
  have hempty : (joinStart attributes).rows attributes.names = [] := rfl
  rw [hrows, hempty, List.nil_append, List.zipIdx_map, List.map_map, joined]
  refine List.map_congr_left fun entry _ => ?_
  rw [Function.comp_apply, Prod.map_fst, Prod.map_snd, map_snd_pairCells]
  rfl

theorem IsTotal.join_eq (hleft : left.IsTotal) (hright : right.IsTotal)
    (hleftOn : left.attributes.contains leftOn = true)
    (hrightOn : right.attributes.contains rightOn = true) {attributes : AttributeSet}
    (hattributes : joinAttributes left right leftOn rightOn = .ok attributes) :
    left.join right leftOn rightOn = .ok (joined left right leftOn rightOn) := by
  have hnames : attributes.names = (joined left right leftOn rightOn).names :=
    AttributeSet.names_of_addAll hattributes
  have hrun := runOn_joinRecords (joinStart attributes) hright
    ((AttributeSet.contains_iff _ _).1 hleftOn) ((AttributeSet.contains_iff _ _).1 hrightOn) hleft
    fun name hname => by
      have hmem : name ∈ attributes.names := by
        rw [hnames]
        exact List.mem_cons_of_mem idName hname
      exact (AttributeSet.contains_iff _ _).2 (List.mem_map_of_mem hmem)
  rw [joinStart] at hrun
  have hfirst : ¬ (!left.attributes.contains leftOn) = true := by simp [hleftOn]
  have hsecond : ¬ (!right.attributes.contains rightOn) = true := by simp [hrightOn]
  rw [join, if_neg hfirst, if_neg hsecond, hattributes]
  simp only [hrun, bind, Except.bind, pure, Except.pure]
  exact congrArg Except.ok (congrArg₂ ResultSet.mk hnames (rows_joined hnames))

/-! ## Names of a join -/

theorem IsTotal.join_cases (hleft : left.IsTotal) (hright : right.IsTotal)
    (hleftOn : left.attributes.contains leftOn = true)
    (hrightOn : right.attributes.contains rightOn = true) :
    (((joined left right leftOn rightOn).names.map Text.lower).Nodup ∧
        left.join right leftOn rightOn = .ok (joined left right leftOn rightOn)) ∨
      (¬ ((joined left right leftOn rightOn).names.map Text.lower).Nodup ∧
        ∃ name, left.join right leftOn rightOn = .error (.reported (.duplicateAttribute name))) := by
  have hnames : (AttributeSet.singleton idName).keys ++
      (left.carriedNames leftOn ++ right.carriedNames rightOn).map Text.lower =
        (joined left right leftOn rightOn).names.map Text.lower := rfl
  have hcases := (AttributeSet.singleton idName).addAll_cases
    (left.carriedNames leftOn ++ right.carriedNames rightOn)
  rw [hnames] at hcases
  rcases hcases with ⟨hdistinct, attributes, hattributes⟩ | ⟨hsame, name, hattributes⟩
  · exact .inl ⟨hdistinct, hleft.join_eq hright hleftOn hrightOn hattributes⟩
  · refine .inr ⟨hsame, name, ?_⟩
    have hfirst : ¬ (!left.attributes.contains leftOn) = true := by simp [hleftOn]
    have hsecond : ¬ (!right.attributes.contains rightOn) = true := by simp [hrightOn]
    have hrefused : joinAttributes left right leftOn rightOn = .error (.duplicateAttribute name) :=
      hattributes
    rw [join, if_neg hfirst, if_neg hsecond, hrefused]

theorem isAnswer_join {leftKey rightKey : Text} (hleft : left.IsSound leftKey)
    (hright : right.IsSound rightKey) (leftOn rightOn : Text) :
    ResultSet.IsAnswer (left.join right leftOn rightOn) := by
  cases hleftOn : left.attributes.contains leftOn with
  | false => exact .inr ⟨.reported (.attributeNotFound leftOn), by rw [join, hleftOn]; rfl, trivial⟩
  | true =>
      cases hrightOn : right.attributes.contains rightOn with
      | false =>
          exact .inr ⟨.reported (.attributeNotFound rightOn), by rw [join, hleftOn, hrightOn]; rfl,
            trivial⟩
      | true =>
          rcases hleft.isTotal.join_cases hright.isTotal hleftOn hrightOn with
            ⟨hdistinct, hjoin⟩ | ⟨-, name, hjoin⟩
          · refine .inl ⟨_, hjoin, List.cons_ne_nil _ _, List.Nodup.of_map Text.lower hdistinct,
              fun row hrow => ?_⟩
            obtain ⟨entry, -, rfl⟩ := List.mem_map.1 hrow
            simp [joined, carriedCells_eq, carriedNames_eq]
          · exact .inr ⟨_, hjoin, trivial⟩

theorem IsSound.lower_qualified {table : Table} {key name : Text} (h : table.IsSound key)
    (hname : name ∈ table.attributes.names) :
    (table.qualified name).lower = key ++ '.' :: name.lower := by
  obtain ⟨display, hdisplay, hidentifier, rfl⟩ := h.schema.displayName
  have hname := h.schema.identifiers name hname
  have hqualified : table.qualified name = display ++ '.' :: name := by
    rw [qualified, hdisplay]
    rfl
  have hascii {text : Text} (h : IsIdentifier text) : ∀ c ∈ text, c.toNat < 128 := fun c hc =>
    isAscii_of_isAlphanum (List.all_eq_true.1 h.alphanum c hc)
  have hall : ∀ c ∈ display ++ '.' :: name, c.toNat < 128 := by
    intro c hc
    rcases List.mem_append.1 hc with hc | hc
    · exact hascii hidentifier c hc
    · rcases List.mem_cons.1 hc with rfl | hc
      · decide
      · exact hascii hname c hc
  rw [hqualified, Text.lower_of_ascii hall, Text.lower_of_alphanum hidentifier.alphanum,
    Text.lower_of_alphanum hname.alphanum, List.map_append, List.map_cons]
  rfl

theorem not_mem_of_alphanum {text : Text} (h : text.all Char.isAlphanum = true) : '.' ∉ text :=
  fun hmem => absurd (List.all_eq_true.1 h '.' hmem) (by decide)

theorem mem_names_of_mem_carried {table : Table} {on name : Text} (h : name ∈ table.carried on) :
    name ∈ table.attributes.names :=
  List.mem_of_mem_filter h

theorem IsSound.alphanum_lower {table : Table} {key name : Text} (h : table.IsSound key)
    (hname : name ∈ table.attributes.names) : name.lower.all Char.isAlphanum = true :=
  (h.schema.identifiers name hname).lower.alphanum

theorem IsSound.alphanum_key {table : Table} {key : Text} (h : table.IsSound key) :
    key.all Char.isAlphanum = true := by
  obtain ⟨display, -, hidentifier, rfl⟩ := h.schema.displayName
  exact hidentifier.lower.alphanum

theorem lower_qualified_inj {leftKey rightKey : Text} (hleft : left.IsSound leftKey)
    (hright : right.IsSound rightKey) {name other : Text} (hname : name ∈ left.attributes.names)
    (hother : other ∈ right.attributes.names) :
    (left.qualified name).lower = (right.qualified other).lower ↔
      leftKey = rightKey ∧ name.lower = other.lower := by
  rw [hleft.lower_qualified hname, hright.lower_qualified hother,
    List.append_cons_inj_of_notMem (not_mem_of_alphanum hleft.alphanum_key)
      (not_mem_of_alphanum (hleft.alphanum_lower hname))]
  simp

theorem IsSound.nodup_carriedNames {table : Table} {key : Text} (h : table.IsSound key)
    (on : Text) : ((table.carriedNames on).map Text.lower).Nodup := by
  have hdistinct : ((table.carried on).map Text.lower).Nodup :=
    table.attributes.distinct.sublist (List.filter_sublist.map _)
  have hnames : (table.carriedNames on).map Text.lower =
      ((table.carried on).map Text.lower).map fun name => key ++ '.' :: name := by
    rw [carriedNames_eq, List.map_map, List.map_map]
    exact List.map_congr_left fun name hname => h.lower_qualified (mem_names_of_mem_carried hname)
  rw [hnames]
  exact hdistinct.map fun first second heq => by simpa using heq

theorem IsSound.idName_not_mem {table : Table} {key : Text} (h : table.IsSound key) (on : Text) :
    idName ∉ (table.carriedNames on).map Text.lower := by
  rw [carriedNames_eq, List.map_map]
  intro hmem
  obtain ⟨name, hname, heq⟩ := List.mem_map.1 hmem
  rw [Function.comp_apply, h.lower_qualified (mem_names_of_mem_carried hname)] at heq
  have hdot : '.' ∈ idName := heq ▸ List.mem_append_right _ List.mem_cons_self
  exact not_mem_of_alphanum isIdentifier_idName.alphanum hdot

/-- The names of a join differ unless both tables have one name and carry over one attribute. -/
theorem nodup_names_joined_iff {leftKey rightKey : Text} (hleft : left.IsSound leftKey)
    (hright : right.IsSound rightKey) (leftOn rightOn : Text) :
    ((joined left right leftOn rightOn).names.map Text.lower).Nodup ↔
      ¬ (leftKey = rightKey ∧ ∃ name ∈ left.carried leftOn, ∃ other ∈ right.carried rightOn,
        name.lower = other.lower) := by
  have hid : idName ∉ (left.carriedNames leftOn).map Text.lower ++
      (right.carriedNames rightOn).map Text.lower := by
    rw [List.mem_append, not_or]
    exact ⟨hleft.idName_not_mem leftOn, hright.idName_not_mem rightOn⟩
  rw [joined, List.map_cons, List.map_append, lower_idName, List.nodup_cons, List.nodup_append]
  constructor
  · rintro ⟨-, -, -, hdiffer⟩ ⟨hkeys, name, hname, other, hother, hlower⟩
    refine hdiffer _ (List.mem_map_of_mem (List.mem_map_of_mem hname)) _
      (List.mem_map_of_mem (List.mem_map_of_mem hother)) ?_
    exact (lower_qualified_inj hleft hright (mem_names_of_mem_carried hname)
      (mem_names_of_mem_carried hother)).2 ⟨hkeys, hlower⟩
  · intro hnone
    refine ⟨hid, hleft.nodup_carriedNames leftOn, hright.nodup_carriedNames rightOn, ?_⟩
    simp only [carriedNames_eq, List.map_map, List.mem_map, Function.comp_apply]
    rintro _ ⟨name, hname, rfl⟩ _ ⟨other, hother, rfl⟩ heq
    obtain ⟨hkeys, hlower⟩ := (lower_qualified_inj hleft hright (mem_names_of_mem_carried hname)
      (mem_names_of_mem_carried hother)).1 heq
    exact hnone ⟨hkeys, name, hname, other, hother, hlower⟩

/-! ## Joins of sound tables -/

/-- A table that is joined with itself carries one of its attributes over twice. -/
def CarriesTwice (table : Table) (leftOn rightOn : Text) : Prop :=
  ∃ name ∈ table.attributes.names,
    name.lower ≠ idName ∧ name.lower ≠ leftOn.lower ∧ name.lower ≠ rightOn.lower

theorem carriesTwice_iff {table : Table} :
    table.CarriesTwice leftOn rightOn ↔
      ∃ name ∈ table.carried leftOn, ∃ other ∈ table.carried rightOn,
        name.lower = other.lower := by
  have hmem {on name : Text} : name ∈ table.carried on ↔
      name ∈ table.attributes.names ∧ name.lower ≠ idName ∧ name.lower ≠ on.lower := by
    rw [carried, List.mem_filter, decide_eq_true_iff]
  constructor
  · rintro ⟨name, hname, hid, hleftOn, hrightOn⟩
    exact ⟨name, hmem.2 ⟨hname, hid, hleftOn⟩, name, hmem.2 ⟨hname, hid, hrightOn⟩, rfl⟩
  · rintro ⟨name, hname, other, hother, hlower⟩
    obtain ⟨hname, hid, hleftOn⟩ := hmem.1 hname
    exact ⟨name, hname, hid, hleftOn, hlower ▸ (hmem.1 hother).2.2⟩

theorem IsSound.join_of_ne {leftKey rightKey : Text} (hleft : left.IsSound leftKey)
    (hright : right.IsSound rightKey) (hleftOn : left.attributes.contains leftOn = true)
    (hrightOn : right.attributes.contains rightOn = true) (hkeys : leftKey ≠ rightKey) :
    left.join right leftOn rightOn = .ok (joined left right leftOn rightOn) := by
  rcases hleft.isTotal.join_cases hright.isTotal hleftOn hrightOn with ⟨-, hjoin⟩ | ⟨hsame, -⟩
  · exact hjoin
  · have hdistinct := (nodup_names_joined_iff hleft hright leftOn rightOn).2 fun hshared =>
      hkeys hshared.1
    exact absurd hdistinct hsame

theorem IsSound.join_self {table : Table} {key : Text} (h : table.IsSound key)
    (hleftOn : table.attributes.contains leftOn = true)
    (hrightOn : table.attributes.contains rightOn = true) :
    (table.CarriesTwice leftOn rightOn →
        ∃ name, table.join table leftOn rightOn =
          .error (.reported (.duplicateAttribute name))) ∧
      (¬ table.CarriesTwice leftOn rightOn →
        table.join table leftOn rightOn = .ok (joined table table leftOn rightOn)) := by
  have hnames := nodup_names_joined_iff h h leftOn rightOn
  rw [eq_self, true_and, ← carriesTwice_iff] at hnames
  rcases h.isTotal.join_cases h.isTotal hleftOn hrightOn with ⟨hdistinct, hjoin⟩ | ⟨hsame, hjoin⟩
  · exact ⟨fun htwice => absurd htwice (hnames.1 hdistinct), fun _ => hjoin⟩
  · exact ⟨fun _ => hjoin, fun hnot => absurd (hnames.2 hnot) hsame⟩

end Table

end Relbase
