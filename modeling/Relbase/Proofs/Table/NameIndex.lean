import Relbase.Proofs.Table.Projecting
import Relbase.Table.NameIndex

/-!
# Names and keys in step

However an index of names is called, its keys are the lower-case forms of its names, no two of
which agree, and a call that is refused changes nothing.  The invariant is that the index
represents a set of attributes, which every call keeps: it ends on the index as it does on the
set.  What the calls do to the names, and that each of them can be told by its key, is then read
off the set.
-/

namespace Relbase

open Relbase.Action

variable {index : NameIndex} {set : AttributeSet} {name : Text}

/-! ## Sets of attributes -/

namespace AttributeSet

theorem eq_of_lower_eq {first second : Text} (hfirst : first ∈ set.names)
    (hsecond : second ∈ set.names) (h : first.lower = second.lower) : first = second :=
  List.inj_on_of_nodup_map set.distinct hfirst hsecond h

theorem contains_eq_false_iff : set.contains name = false ↔ name.lower ∉ set.keys := by
  rw [← Bool.not_eq_true, contains_iff]

theorem ofNames_cases (names : List Text) :
    ((names.map Text.lower).Nodup ∧ ∃ made, ofNames names = .ok made ∧ made.names = names) ∨
      (¬ (names.map Text.lower).Nodup ∧
        ∃ name, ofNames names = .error (.duplicateAttribute name)) := by
  rcases empty.addAll_cases names with ⟨hdistinct, made, hmade⟩ | hrepeated
  · exact .inl ⟨hdistinct, made, hmade, names_of_addAll hmade⟩
  · exact .inr hrepeated

theorem names_erase (set : AttributeSet) (name : Text) :
    (set.erase name).names = set.names.filter fun other => other.lower ≠ name.lower := rfl

theorem exists_erase (h : set.contains name = true) :
    ∃ before spelled after, set.names = before ++ spelled :: after ∧
      spelled.lower = name.lower ∧ (set.erase name).names = before ++ after := by
  obtain ⟨spelled, hspelled, hlower⟩ := List.mem_map.1 ((contains_iff set name).1 h)
  obtain ⟨before, after, hnames⟩ := List.append_of_mem hspelled
  have hdistinct := set.distinct
  rw [hnames, List.map_append, List.map_cons, List.nodup_middle, List.nodup_cons,
    ← List.map_append, hlower] at hdistinct
  have hothers : ((before ++ after).filter fun other => other.lower ≠ name.lower) =
      before ++ after :=
    List.filter_eq_self.2 fun other hother =>
      decide_eq_true fun heq => hdistinct.1 (heq ▸ List.mem_map_of_mem hother)
  refine ⟨before, spelled, after, hnames, hlower, ?_⟩
  rw [names_erase, hnames, List.filter_append, List.filter_cons_of_neg (by simpa using hlower),
    ← List.filter_append, hothers]

theorem exists_canonical (h : set.contains name = true) :
    ∃ spelled, set.canonical name = .ok spelled ∧ spelled ∈ set.names ∧
      spelled.lower = name.lower ∧
      ∀ other ∈ set.names, other.lower = name.lower → other = spelled := by
  obtain ⟨spelled, hfound, hspelled⟩ := exists_spelling h
  have hmem : spelled ∈ set.names := List.mem_of_find?_eq_some hfound
  have hlower := lower_canonical hspelled
  exact ⟨spelled, hspelled, hmem, hlower, fun other hother heq =>
    eq_of_lower_eq hother hmem (heq.trans hlower.symm)⟩

theorem canonical_of_not_contains (h : set.contains name = false) :
    set.canonical name = .error (.attributeNotFound name) := by
  have hnone : (set.names.find? fun other => other.lower = name.lower) = none := by
    refine List.find?_eq_none.2 fun other hother hlower => contains_eq_false_iff.1 h ?_
    exact List.mem_map.2 ⟨other, hother, of_decide_eq_true hlower⟩
  rw [canonical, hnone]

def outcome (set : AttributeSet) : NameIndex.Call → Except DbError AttributeSet
  | .construct names => ofNames names
  | .add name => set.add name
  | .remove name => set.remove name

def next (set : AttributeSet) (call : NameIndex.Call) : AttributeSet :=
  match set.outcome call with
  | .ok changed => changed
  | .error _ => set

def after (calls : List NameIndex.Call) : AttributeSet :=
  calls.foldl next empty

end AttributeSet

namespace NameIndex

/-! ## What an index represents -/

/-- An index has the names of a set, and as keys those that the names have in the set. -/
structure Represents (index : NameIndex) (set : AttributeSet) : Prop where
  names : index.names = set.names
  keys : ∀ key, index.keys.contains key = true ↔ key ∈ set.keys

/-- An action ends on an index as it does on a set, and changes nothing where it is refused. -/
def EndsAs (index : NameIndex) (action : Action NameIndex Unit)
    (outcome : Except DbError AttributeSet) : Prop :=
  action.Ensures index (fun _ later => ∃ changed, outcome = .ok changed ∧ later.Represents changed)
    fun failure later =>
      later = index ∧ ∃ error, outcome = .error error ∧ failure = .reported error

theorem EndsAs.of_eq_ok {action : Action NameIndex Unit} {outcome : Except DbError AttributeSet}
    {changed : AttributeSet} (h : index.EndsAs action outcome) (houtcome : outcome = .ok changed) :
    ∃ later, action.runOn index = (.ok (), later) ∧ later.Represents changed := by
  subst houtcome
  rcases hrun : action.runOn index with ⟨_ | _, later⟩
  · obtain ⟨-, error, herror, -⟩ := Ensures.of_error h hrun
    cases herror
  · obtain ⟨changed, hchanged, hlater⟩ := Ensures.of_ok h hrun
    cases hchanged
    exact ⟨later, rfl, hlater⟩

theorem EndsAs.of_eq_error {action : Action NameIndex Unit} {outcome : Except DbError AttributeSet}
    {error : DbError} (h : index.EndsAs action outcome) (houtcome : outcome = .error error) :
    action.runOn index = (.error (.reported error), index) := by
  subst houtcome
  rcases hrun : action.runOn index with ⟨failure | _, later⟩
  · obtain ⟨rfl, error, herror, rfl⟩ := Ensures.of_error h hrun
    cases herror
    rfl
  · obtain ⟨changed, hchanged, -⟩ := Ensures.of_ok h hrun
    cases hchanged

theorem represents_empty : empty.Represents .empty where
  names := rfl
  keys key := by simp [empty, AttributeSet.empty, AttributeSet.keys, SortedMap.contains]

theorem Represents.contains (h : index.Represents set) (name : Text) :
    index.contains name = set.contains name := by
  rw [Bool.eq_iff_iff, AttributeSet.contains_iff]
  exact h.keys name.lower

theorem Represents.canonical (h : index.Represents set) (name : Text) :
    index.canonical name = set.canonical name := by
  obtain ⟨names, keys⟩ := index
  obtain rfl : names = set.names := h.names
  rfl

/-! ## Calls -/

theorem Represents.add (h : index.Represents set) (name : Text) :
    index.EndsAs (NameIndex.add name) (set.add name) := by
  simp only [EndsAs, NameIndex.add, ensures_bind, ensures_get, h.contains]
  split
  · rename_i hpresent
    rw [AttributeSet.contains_iff] at hpresent
    exact ⟨rfl, _, AttributeSet.add_of_mem hpresent, rfl⟩
  · rename_i hmissing
    rw [AttributeSet.contains_iff] at hmissing
    obtain ⟨larger, hadd, hnames⟩ := AttributeSet.exists_add hmissing
    refine ⟨larger, hadd, ?_, fun key => ?_⟩
    · rw [hnames, ← h.names]
    · rw [SortedMap.contains, SortedMap.isSome_get?_insert, ← SortedMap.contains, h.keys,
        AttributeSet.keys_of_add hadd, List.mem_append, List.mem_singleton]
      exact or_comm

theorem Represents.remove (h : index.Represents set) (name : Text) :
    index.EndsAs (NameIndex.remove name) (set.remove name) := by
  simp only [EndsAs, NameIndex.remove, ensures_bind, ensures_get, h.contains]
  split
  · rename_i hmissing
    rw [Bool.not_eq_true'] at hmissing
    exact ⟨rfl, _, by rw [AttributeSet.remove, hmissing, if_neg Bool.false_ne_true], rfl⟩
  · rename_i hpresent
    rw [Bool.not_eq_true', Bool.not_eq_false] at hpresent
    refine ⟨set.erase name, by rw [AttributeSet.remove, if_pos hpresent], ?_, fun key => ?_⟩
    · rw [AttributeSet.names_erase, ← h.names]
    · rw [SortedMap.contains, SortedMap.isSome_get?_erase, ← SortedMap.contains, h.keys,
        AttributeSet.keys_erase, List.mem_filter, decide_eq_true_iff]
      exact and_comm

theorem Represents.ensures_addAll (h : index.Represents set) (names : List Text) :
    (addAll names).Ensures index
      (fun _ later => ∃ changed, set.addAll names = .ok changed ∧ later.Represents changed)
      fun failure _ => ∃ error, set.addAll names = .error error ∧ failure = .reported error := by
  induction names generalizing index set with
  | nil => exact ⟨set, rfl, h⟩
  | cons name rest ih =>
      rw [addAll, ensures_bind, AttributeSet.addAll]
      refine Ensures.mono (h.add name) (fun _ later hadded => ?_) fun failure _ hrefused => ?_
      · obtain ⟨larger, hadd, hlater⟩ := hadded
        rw [hadd]
        exact ih hlater
      · obtain ⟨-, error, hadd, hfailure⟩ := hrefused
        rw [hadd]
        exact ⟨error, rfl, hfailure⟩

theorem endsAs_construct (index : NameIndex) (names : List Text) :
    index.EndsAs (construct names) (AttributeSet.ofNames names) := by
  have hall := represents_empty.ensures_addAll names
  rw [EndsAs, construct, AttributeSet.ofNames]
  rcases hrun : (addAll names).runOn empty with ⟨outcome, fresh⟩
  simp only [ensures_bind, ensures_ofOutcome, ensures_set, true_and]
  refine ⟨fun _ houtcome => ?_, fun failure houtcome => ?_⟩
  · exact hall.of_ok (hrun.trans (by rw [houtcome]))
  · exact hall.of_error (hrun.trans (by rw [houtcome]))

theorem Represents.endsAs_run (h : index.Represents set) (call : Call) :
    index.EndsAs call.run (set.outcome call) := by
  cases call with
  | construct names => exact index.endsAs_construct names
  | add name => exact h.add name
  | remove name => exact h.remove name

theorem Represents.next (h : index.Represents set) (call : Call) :
    (index.next call).Represents (set.next call) := by
  refine Ensures.finally (P := fun later : NameIndex => later.Represents (set.next call)) ?_
  refine Ensures.mono (h.endsAs_run call) (fun _ later hdone => ?_) fun _ later hrefused => ?_
  · obtain ⟨changed, houtcome, hlater⟩ := hdone
    rwa [AttributeSet.next, houtcome]
  · obtain ⟨rfl, error, houtcome, -⟩ := hrefused
    rwa [AttributeSet.next, houtcome]

theorem represents_after (calls : List Call) :
    (after calls).Represents (AttributeSet.after calls) := by
  induction calls using List.reverseRecOn with
  | nil => exact represents_empty
  | append_singleton calls call ih =>
      rw [after, AttributeSet.after, List.foldl_append, List.foldl_append]
      exact ih.next call

/-! ## Names and keys -/

/-- What can be relied on in an index: its names and its keys are in step, and so is what is
asked of it. -/
structure IsExact (index : NameIndex) : Prop where
  /-- The keys are the lower-case forms of the names. -/
  keys : ∀ key, index.keys.contains key = true ↔ ∃ name ∈ index.names, name.lower = key
  distinct : (index.names.map Text.lower).Nodup
  /-- A call that is refused changes nothing. -/
  unchanged : ∀ (call : Call) failure later,
    call.run.runOn index = (.error failure, later) → later = index
  /-- Names take the place of those that are there if they differ in lower case, and otherwise
  one of them is refused. -/
  construct : ∀ names : List Text,
    if (names.map Text.lower).Nodup then
      ∃ later, (NameIndex.construct names).runOn index = (.ok (), later) ∧ later.names = names
    else
      ∃ name, (NameIndex.construct names).runOn index =
        (.error (.reported (.duplicateAttribute name)), index)
  /-- A name is refused if it is there, and otherwise put at the end. -/
  add : ∀ name : Text,
    if index.contains name = true then
      (NameIndex.add name).runOn index = (.error (.reported (.duplicateAttribute name)), index)
    else
      ∃ later, (NameIndex.add name).runOn index = (.ok (), later) ∧
        later.names = index.names ++ [name]
  /-- A name that is there is taken out of one place, and one that is not is refused. -/
  remove : ∀ name : Text,
    if index.contains name = true then
      ∃ later before spelled after, (NameIndex.remove name).runOn index = (.ok (), later) ∧
        index.names = before ++ spelled :: after ∧ spelled.lower = name.lower ∧
          later.names = before ++ after
    else
      (NameIndex.remove name).runOn index = (.error (.reported (.attributeNotFound name)), index)
  /-- A name that is there is found under the only spelling that has its key. -/
  canonical : ∀ name : Text,
    if index.contains name = true then
      ∃ spelled, index.canonical name = .ok spelled ∧ spelled ∈ index.names ∧
        spelled.lower = name.lower ∧
          ∀ other ∈ index.names, other.lower = name.lower → other = spelled
    else index.canonical name = .error (.attributeNotFound name)

theorem Represents.isExact (h : index.Represents set) : index.IsExact where
  keys key := by
    rw [h.keys, AttributeSet.keys, h.names, List.mem_map]
  distinct := by
    rw [h.names]
    exact set.distinct
  unchanged call failure later hrun := ((h.endsAs_run call).of_error hrun).1
  construct names := by
    have hends := index.endsAs_construct names
    rcases AttributeSet.ofNames_cases names with
      ⟨hdistinct, made, hmade, hnames⟩ | ⟨hrepeated, name, hrefused⟩
    · rw [if_pos hdistinct]
      obtain ⟨later, hrun, hlater⟩ := hends.of_eq_ok hmade
      exact ⟨later, hrun, hlater.names.trans hnames⟩
    · rw [if_neg hrepeated]
      exact ⟨name, hends.of_eq_error hrefused⟩
  add name := by
    split
    · rename_i hpresent
      rw [h.contains, AttributeSet.contains_iff] at hpresent
      exact (h.add name).of_eq_error (AttributeSet.add_of_mem hpresent)
    · rename_i hmissing
      rw [h.contains, AttributeSet.contains_iff] at hmissing
      obtain ⟨larger, hadd, hnames⟩ := AttributeSet.exists_add hmissing
      obtain ⟨later, hrun, hlater⟩ := (h.add name).of_eq_ok hadd
      exact ⟨later, hrun, by rw [hlater.names, hnames, h.names]⟩
  remove name := by
    split
    · rename_i hpresent
      rw [h.contains] at hpresent
      obtain ⟨before, spelled, after, hnames, hlower, herase⟩ := AttributeSet.exists_erase hpresent
      obtain ⟨later, hrun, hlater⟩ := (h.remove name).of_eq_ok (if_pos hpresent)
      exact ⟨later, before, spelled, after, hrun, h.names.trans hnames, hlower,
        hlater.names.trans herase⟩
    · rename_i hmissing
      rw [h.contains] at hmissing
      exact (h.remove name).of_eq_error (if_neg hmissing)
  canonical name := by
    rw [h.contains, h.canonical, h.names]
    split
    · rename_i hpresent
      exact AttributeSet.exists_canonical hpresent
    · rename_i hmissing
      exact AttributeSet.canonical_of_not_contains (Bool.eq_false_iff.2 hmissing)

structure AnswersAs (index : NameIndex) (set : AttributeSet) : Prop where
  represents : index.Represents set
  calls : ∀ call : Call, index.EndsAs call.run (set.outcome call)
  contains : ∀ name, index.contains name = set.contains name
  canonical : ∀ name, index.canonical name = set.canonical name

/-- However an index is called, its names and its keys are in step, and it answers as the set of
attributes does that the same calls make. -/
theorem calls_keep_in_step (calls : List Call) :
    (after calls).IsExact ∧ (after calls).AnswersAs (AttributeSet.after calls) := by
  have h := represents_after calls
  exact ⟨h.isExact, h, h.endsAs_run, h.contains, h.canonical⟩

def respellings : List Call :=
  [.construct ["id".toList, "Name".toList, "ΑΣ".toList], .add "NAME".toList, .remove "naMe".toList,
    .add "name".toList, .add "ας".toList, .add "ασ".toList]

example : (after respellings).names =
    ["id".toList, "ΑΣ".toList, "name".toList, "ασ".toList] := by
  decide +kernel

end NameIndex

end Relbase
