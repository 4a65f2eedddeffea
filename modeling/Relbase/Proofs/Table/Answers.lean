import Mathlib.Data.List.Nodup
import Relbase.Proofs.Table.Failures

/-!
# Answers from sound tables

A selection either has a result that can be shown as a grid, or its failure is reported.
-/

namespace Relbase

open Relbase.Action

/-! ## Names -/

namespace AttributeSet

theorem nodup_names (set : AttributeSet) : set.names.Nodup :=
  List.Nodup.of_map Text.lower set.distinct

theorem lower_canonical {set : AttributeSet} {name spelled : Text}
    (h : set.canonical name = .ok spelled) : spelled.lower = name.lower := by
  rw [canonical] at h
  split at h
  · rename_i found hfound
    cases h
    simpa using List.find?_some hfound
  · cases h

theorem names_of_addAll {set larger : AttributeSet} {names : List Text}
    (h : set.addAll names = .ok larger) : larger.names = set.names ++ names := by
  induction names generalizing set with
  | nil =>
      cases h
      simp
  | cons name rest ih =>
      rw [addAll] at h
      cases hadd : set.add name with
      | error error => simp [hadd, bind, Except.bind] at h
      | ok middle =>
          rw [ih (by simpa [hadd, bind, Except.bind] using h), (names_of_add hadd).1]
          simp

theorem addAll_cases (set : AttributeSet) (names : List Text) :
    ((set.keys ++ names.map Text.lower).Nodup ∧ ∃ larger, set.addAll names = .ok larger) ∨
      (¬ (set.keys ++ names.map Text.lower).Nodup ∧
        ∃ name, set.addAll names = .error (.duplicateAttribute name)) := by
  induction names generalizing set with
  | nil => exact .inl ⟨by rw [List.map_nil, List.append_nil]; exact set.distinct, set, rfl⟩
  | cons name rest ih =>
      by_cases hname : name.lower ∈ set.keys
      · refine .inr ⟨fun hdistinct => ?_, name, ?_⟩
        · exact (List.nodup_append.1 hdistinct).2.2 _ hname _ List.mem_cons_self rfl
        · rw [addAll, add_of_mem hname]
          rfl
      · obtain ⟨larger, hadd, -⟩ := exists_add hname
        have hlarger := ih larger
        rw [keys_of_add hadd, List.append_assoc] at hlarger
        rw [addAll, hadd]
        exact hlarger

end AttributeSet

def Columns.IsNonempty : Columns → Prop
  | .all => True
  | .named names => names ≠ []

/-- A result that a grid can show: its names differ, and every row has a cell for each. -/
structure ResultSet.IsPresentable (result : ResultSet) : Prop where
  ne_nil : result.names ≠ []
  distinct : result.names.Nodup
  rectangular : ∀ row ∈ result.rows, row.length = result.names.length

def ResultSet.IsAnswer (outcome : Except Failure ResultSet) : Prop :=
  (∃ result, outcome = .ok result ∧ result.IsPresentable) ∨
    ∃ failure, outcome = .error failure ∧ failure.IsReported

namespace Table

variable {key : Text} {table : Table}

theorem length_of_mem_rows {names : List Text} {row : List Text} (h : row ∈ table.rows names) :
    row.length = names.length := by
  obtain ⟨entry, _, rfl⟩ := List.mem_map.1 h
  simp [Table.row]

theorem length_of_mem_rowsOf {names : List Text} {ids : List Int} {row : List Text}
    (h : row ∈ table.rowsOf names ids) : row.length = names.length := by
  obtain ⟨id, _, hrow⟩ := List.mem_filterMap.1 h
  obtain ⟨record, _, rfl⟩ := Option.map_eq_some_iff.1 hrow
  simp [Table.row]

/-! ## Selections -/

theorem resolveNames_eq_ok {attributes : AttributeSet} {seen requested names : List Text}
    (h : resolveNames attributes seen requested = .ok names) :
    (names.map Text.lower).Nodup ∧ (∀ name ∈ names, name.lower ∉ seen) ∧
      (requested ≠ [] → seen = [] → names ≠ []) := by
  induction requested generalizing seen names with
  | nil =>
      cases h
      exact ⟨List.nodup_nil, fun _ hmem => absurd hmem List.not_mem_nil, fun hne => absurd rfl hne⟩
  | cons name rest ih =>
      rw [resolveNames] at h
      split at h
      · cases h
      split at h
      · rename_i hseen
        obtain ⟨hdistinct, hnew, _⟩ := ih h
        exact ⟨hdistinct, hnew, fun _ hnil => by simp [hnil] at hseen⟩
      · rename_i hseen
        cases hspelled : attributes.canonical name with
        | error error => simp [hspelled, bind, Except.bind] at h
        | ok spelled =>
            cases hrest : resolveNames attributes (name.lower :: seen) rest with
            | error error => simp [hspelled, hrest, bind, Except.bind] at h
            | ok others =>
                simp only [hspelled, hrest, bind, Except.bind, pure, Except.pure,
                  Except.ok.injEq] at h
                obtain ⟨hdistinct, hnew, _⟩ := ih hrest
                have hlower := AttributeSet.lower_canonical hspelled
                subst h
                refine ⟨List.nodup_cons.2 ⟨fun hmem => ?_, hdistinct⟩, fun other hother => ?_,
                  fun _ _ => List.cons_ne_nil _ _⟩
                · obtain ⟨other, hother, heq⟩ := List.mem_map.1 hmem
                  exact hnew other hother (by rw [heq, hlower]; exact List.mem_cons_self)
                · rcases List.mem_cons.1 hother with rfl | hother
                  · rw [hlower]
                    simpa using hseen
                  · exact fun hmem => hnew other hother (List.mem_cons_of_mem _ hmem)

theorem resolve_eq_ok (h : table.IsSound key) {columns : Columns} (hcolumns : columns.IsNonempty)
    {names : List Text} (hnames : resolve table.attributes columns = .ok names) :
    names ≠ [] ∧ names.Nodup := by
  cases columns with
  | all =>
      cases hnames
      obtain ⟨rest, hrest⟩ := h.schema.names
      exact ⟨by rw [attributes, hrest]; simp, AttributeSet.nodup_names _⟩
  | named requested =>
      obtain ⟨hdistinct, _, hne⟩ := resolveNames_eq_ok hnames
      exact ⟨hne hcolumns rfl, List.Nodup.of_map Text.lower hdistinct⟩

theorem isAnswer_answer (h : table.IsSound key) {columns : Columns}
    (hcolumns : columns.IsNonempty) (condition : Option Condition) :
    ResultSet.IsAnswer (table.answer columns condition) := by
  rw [answer]
  cases hnames : resolve table.attributes columns with
  | error error => exact .inr ⟨_, rfl, trivial⟩
  | ok names =>
      obtain ⟨hne, hdistinct⟩ := resolve_eq_ok h hcolumns hnames
      cases condition with
      | none => exact .inl ⟨_, rfl, hne, hdistinct, fun _ => length_of_mem_rows⟩
      | some condition =>
          simp only
          cases hids : table.select condition with
          | error failure => exact .inr ⟨failure, rfl, isReported_of_select h hids⟩
          | ok ids => exact .inl ⟨_, rfl, hne, hdistinct, fun _ => length_of_mem_rowsOf⟩

end Table

end Relbase
