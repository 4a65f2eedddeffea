import Mathlib.Data.List.Induction
import Mathlib.Data.List.Perm.Subperm
import Relbase.Map.Ordered
import Relbase.Map.Sorted

/-!
# Look-ups and entries

What a look-up finds is an entry, and where keys stand once every entry is found.
-/

namespace Relbase.Assoc

variable {κ ν : Type} [DecidableEq κ]

theorem mem_of_get? {key : κ} {value : ν} {entries : List (κ × ν)}
    (h : get? key entries = some value) : (key, value) ∈ entries := by
  induction entries with
  | nil => cases h
  | cons entry rest ih =>
      rw [get?] at h
      split at h
      · rename_i hkey
        cases h
        exact List.mem_cons.2 (.inl (Prod.ext hkey.symm rfl))
      · exact List.mem_cons_of_mem _ (ih h)

theorem isSome_get?_iff {key : κ} {entries : List (κ × ν)} :
    (get? key entries).isSome = true ↔ key ∈ keys entries := by
  rw [Option.isSome_iff_ne_none, ne_eq, get?_eq_none_iff, not_not]

theorem get?_eq_some_iff {key : κ} {value : ν} {entries : List (κ × ν)}
    (h : (keys entries).Nodup) : get? key entries = some value ↔ (key, value) ∈ entries := by
  refine ⟨mem_of_get?, fun hmem => ?_⟩
  induction entries with
  | nil => cases hmem
  | cons entry rest ih =>
      obtain ⟨hfirst, hrest⟩ := List.nodup_cons.1 h
      rcases List.mem_cons.1 hmem with rfl | hmem
      · exact if_pos rfl
      · have hne : entry.1 ≠ key := fun heq =>
          hfirst (heq ▸ List.mem_map_of_mem (f := Prod.fst) hmem)
        rw [get?, if_neg hne, ih hrest hmem]

omit [DecidableEq κ] in
theorem keys_zip {first : List κ} {second : List ν} (h : first.length ≤ second.length) :
    keys (first.zip second) = first :=
  List.map_fst_zip h

/-! ## Putting entries in turn -/

theorem put_eq_append {key : κ} {value : ν} {entries : List (κ × ν)} (h : key ∉ keys entries) :
    put key value entries = entries ++ [(key, value)] := by
  induction entries with
  | nil => rfl
  | cons entry rest ih =>
      simp only [keys, List.map_cons, List.mem_cons, not_or] at h
      rw [put, if_neg (Ne.symm h.1), ih h.2]
      rfl

theorem mem_of_mem_put {key : κ} {value : ν} {entries : List (κ × ν)} {entry : κ × ν}
    (h : entry ∈ put key value entries) : entry = (key, value) ∨ entry ∈ entries := by
  induction entries with
  | nil => exact .inl (List.mem_singleton.1 h)
  | cons first rest ih =>
      rw [put] at h
      split at h
      · exact (List.mem_cons.1 h).imp_right (List.mem_cons_of_mem _)
      · rcases List.mem_cons.1 h with rfl | h
        · exact .inr List.mem_cons_self
        · exact (ih h).imp_right (List.mem_cons_of_mem _)

theorem put_eq_self {key : κ} {value : ν} {entries : List (κ × ν)} (h : get? key entries = some value) :
    put key value entries = entries := by
  induction entries with
  | nil => cases h
  | cons entry rest ih =>
      rw [get?] at h
      rw [put]
      split at h
      · rename_i hkey
        rw [if_pos hkey, ← hkey, ← Option.some.inj h]
      · rename_i hkey
        rw [if_neg hkey, ih h]

theorem put_eq_map {key : κ} {entries : List (κ × ν)} (hdistinct : (keys entries).Nodup)
    (hmem : key ∈ keys entries) (value : ν) :
    put key value entries =
      entries.map fun entry => (entry.1, if entry.1 = key then value else entry.2) := by
  induction entries with
  | nil => cases hmem
  | cons entry rest ih =>
      obtain ⟨hfirst, hrest⟩ := List.nodup_cons.1 hdistinct
      rw [put, List.map_cons]
      by_cases hkey : entry.1 = key
      · have hothers : rest.map (fun other => (other.1, if other.1 = key then value else other.2)) =
            rest := by
          refine (List.map_congr_left fun other hother => ?_).trans (List.map_id rest)
          have hne : other.1 ≠ key := fun heq =>
            hfirst (hkey ▸ heq ▸ List.mem_map_of_mem (f := Prod.fst) hother)
          rw [if_neg hne]
          rfl
        rw [if_pos hkey, if_pos hkey, hothers, hkey]
      · rw [if_neg hkey, if_neg hkey,
          ih hrest ((List.mem_cons.1 hmem).resolve_left (Ne.symm hkey))]

theorem put_put (key : κ) (first second : ν) (entries : List (κ × ν)) :
    put key second (put key first entries) = put key second entries := by
  induction entries with
  | nil => simp [put]
  | cons entry rest ih =>
      by_cases hkey : entry.1 = key
      · simp [put, hkey]
      · simp [put, hkey, ih]

theorem ofList_eq_self {entries : List (κ × ν)} (h : (keys entries).Nodup) :
    ofList entries = entries := by
  have hfold : ∀ (rest front : List (κ × ν)), (keys (front ++ rest)).Nodup →
      rest.foldl (fun map entry => put entry.1 entry.2 map) front = front ++ rest := by
    intro rest
    induction rest with
    | nil => simp
    | cons entry rest ih =>
        intro front hnodup
        have hkey : entry.1 ∉ keys front := by
          rw [keys, List.map_append, List.nodup_append] at hnodup
          exact fun hmem => hnodup.2.2 _ hmem entry.1 (by simp) rfl
        rw [List.foldl_cons, put_eq_append hkey, ih _ (by simpa using hnodup)]
        simp
  exact hfold entries [] h

theorem nodup_keys_ofList (entries : List (κ × ν)) : (keys (ofList entries)).Nodup := by
  have hfold : ∀ (rest map : List (κ × ν)), (keys map).Nodup →
      (keys (rest.foldl (fun map entry => put entry.1 entry.2 map) map)).Nodup := by
    intro rest
    induction rest with
    | nil => exact fun _ h => h
    | cons entry rest ih => exact fun map h => ih _ (nodup_keys_put entry.1 entry.2 h)
  exact hfold entries [] List.nodup_nil

theorem mem_of_mem_ofList {entries : List (κ × ν)} {entry : κ × ν} (h : entry ∈ ofList entries) :
    entry ∈ entries := by
  have hfold : ∀ (rest map : List (κ × ν)),
      entry ∈ rest.foldl (fun map entry => put entry.1 entry.2 map) map →
        entry ∈ map ∨ entry ∈ rest := by
    intro rest
    induction rest with
    | nil => exact fun _ h => .inl h
    | cons first rest ih =>
        intro map h
        rcases ih _ h with hmap | hrest
        · rcases mem_of_mem_put hmap with rfl | hmap
          · exact .inr List.mem_cons_self
          · exact .inl hmap
        · exact .inr (List.mem_cons_of_mem _ hrest)
  simpa using hfold entries [] h

theorem ofList_ne_nil {entries : List (κ × ν)} (h : entries ≠ []) : ofList entries ≠ [] := by
  have hput : ∀ (entry : κ × ν) (map : List (κ × ν)), put entry.1 entry.2 map ≠ [] := by
    intro entry map
    cases map with
    | nil => simp [put]
    | cons first rest =>
        rw [put]
        split <;> simp
  have hfold : ∀ (rest map : List (κ × ν)), map ≠ [] →
      rest.foldl (fun map entry => put entry.1 entry.2 map) map ≠ [] := by
    intro rest
    induction rest with
    | nil => exact fun _ h => h
    | cons entry rest ih => exact fun map _ => ih _ (hput entry map)
  cases entries with
  | nil => exact absurd rfl h
  | cons entry rest => exact hfold rest _ (hput entry [])

theorem put_mapValues {μ : Type} (f : ν → μ) (key : κ) (value : ν) (entries : List (κ × ν)) :
    put key (f value) (entries.map fun entry => (entry.1, f entry.2)) =
      (put key value entries).map fun entry => (entry.1, f entry.2) := by
  induction entries with
  | nil => rfl
  | cons entry rest ih =>
      by_cases hkey : entry.1 = key
      · simp [put, hkey]
      · simp [put, hkey, ih]

theorem ofList_concat (entries : List (κ × ν)) (last : κ × ν) :
    ofList (entries ++ [last]) = put last.1 last.2 (ofList entries) := by
  simp [ofList]

theorem ofList_mapValues {μ : Type} (f : ν → μ) (entries : List (κ × ν)) :
    ofList (entries.map fun entry => (entry.1, f entry.2)) =
      (ofList entries).map fun entry => (entry.1, f entry.2) := by
  induction entries using List.reverseRecOn with
  | nil => rfl
  | append_singleton entries last ih =>
      rw [List.map_append, List.map_singleton, ofList_concat, ofList_concat, ih]
      exact put_mapValues f last.1 last.2 (ofList entries)

theorem values_put_subperm (key : κ) (value : ν) (entries : List (κ × ν)) :
    ((put key value entries).map Prod.snd).Subperm (value :: entries.map Prod.snd) := by
  induction entries with
  | nil => exact .refl _
  | cons entry rest ih =>
      rw [put]
      split
      · exact ((List.sublist_cons_self entry.2 _).cons_cons value).subperm
      · exact ((List.subperm_cons entry.2).2 ih).trans (List.Perm.swap _ _ _).subperm

theorem values_ofList_subperm (entries : List (κ × ν)) :
    ((ofList entries).map Prod.snd).Subperm (entries.map Prod.snd) := by
  induction entries using List.reverseRecOn with
  | nil => exact .refl _
  | append_singleton entries last ih =>
      rw [ofList_concat, List.map_append, List.map_singleton]
      refine (values_put_subperm _ _ _).trans ?_
      exact ((List.subperm_cons _).2 ih).trans (List.perm_append_singleton _ _).symm.subperm

end Relbase.Assoc

namespace Relbase

/-! ## Maps -/

theorem OrderedMap.get?_eq_some_iff {κ ν : Type} [DecidableEq κ] {map : OrderedMap κ ν} {key : κ}
    {value : ν} : map.get? key = some value ↔ (key, value) ∈ map.entries :=
  Assoc.get?_eq_some_iff map.distinct

theorem OrderedMap.put_eq_self {κ ν : Type} [DecidableEq κ] {map : OrderedMap κ ν} {key : κ}
    {value : ν} (h : map.get? key = some value) : map.put key value = map := by
  obtain ⟨entries, distinct⟩ := map
  simp only [put, OrderedMap.mk.injEq]
  exact Assoc.put_eq_self h

theorem OrderedMap.put_put {κ ν : Type} [DecidableEq κ] (map : OrderedMap κ ν) (key : κ)
    (first second : ν) : (map.put key first).put key second = map.put key second := by
  simp only [put, OrderedMap.mk.injEq]
  exact Assoc.put_put key first second map.entries

theorem OrderedMap.get?_put_eq_some_iff {κ ν : Type} [DecidableEq κ] {map : OrderedMap κ ν}
    {key other : κ} {value found : ν} : (map.put key value).get? other = some found ↔
      key = other ∧ value = found ∨ key ≠ other ∧ map.get? other = some found := by
  rw [get?_put]
  by_cases h : key = other <;> simp [h]

theorem OrderedMap.get?_erase_eq_some_iff {κ ν : Type} [DecidableEq κ] {map : OrderedMap κ ν}
    {key other : κ} {found : ν} : (map.erase key).get? other = some found ↔
      key ≠ other ∧ map.get? other = some found := by
  rw [get?_erase]
  by_cases h : key = other <;> simp [h]

namespace SortedMap

variable {κ ν : Type} [Ord κ] [Std.LawfulEqOrd κ]

theorem nodup_keys (map : SortedMap κ ν) : (Assoc.keys map.entries).Nodup := by
  refine List.pairwise_map.2 (map.ascending.imp fun {first second} h heq => ?_)
  simp [heq, Std.ReflCmp.compare_self] at h

variable [DecidableEq κ]

theorem get?_eq_some_iff {map : SortedMap κ ν} {key : κ} {value : ν} :
    map.get? key = some value ↔ (key, value) ∈ map.entries :=
  Assoc.get?_eq_some_iff map.nodup_keys

omit [Std.LawfulEqOrd κ] in
theorem get?_filter (map : SortedMap κ ν) (test : κ → Bool) (key : κ) :
    (map.filter fun other _ => test other).get? key = if test key then map.get? key else none :=
  Assoc.get?_filter test key map.entries

variable [Std.TransOrd κ]

theorem isSome_get?_insert {map : SortedMap κ ν} {key other : κ} {value : ν} :
    ((map.insert key value).get? other).isSome = true ↔
      other = key ∨ (map.get? other).isSome = true := by
  rw [get?_insert]
  by_cases hkey : key = other
  · simp [hkey]
  · simp [hkey, Ne.symm hkey]

omit [Std.LawfulEqOrd κ] [Std.TransOrd κ] in
theorem get?_erase_eq_some_iff {map : SortedMap κ ν} {key other : κ} {found : ν} :
    (map.erase key).get? other = some found ↔ key ≠ other ∧ map.get? other = some found := by
  rw [get?_erase]
  by_cases h : key = other <;> simp [h]

omit [Std.LawfulEqOrd κ] [Std.TransOrd κ] in
theorem isSome_get?_erase {map : SortedMap κ ν} {key other : κ} :
    ((map.erase key).get? other).isSome = true ↔
      other ≠ key ∧ (map.get? other).isSome = true := by
  rw [get?_erase]
  by_cases hkey : key = other
  · simp [hkey]
  · simp [hkey, Ne.symm hkey]

theorem get?_foldl_insert {entries : List (κ × ν)} (h : (Assoc.keys entries).Nodup)
    (map : SortedMap κ ν) (key : κ) :
    (entries.foldl (fun map entry => map.insert entry.1 entry.2) map).get? key =
      (Assoc.get? key entries).or (map.get? key) := by
  induction entries generalizing map with
  | nil => rfl
  | cons entry rest ih =>
      obtain ⟨hfirst, hrest⟩ := List.nodup_cons.1 h
      rw [List.foldl_cons, ih hrest, get?_insert, Assoc.get?]
      by_cases hkey : entry.1 = key
      · have hnone : Assoc.get? key rest = none := Assoc.get?_eq_none_iff.2 (hkey ▸ hfirst)
        simp [hkey, hnone]
      · simp [hkey]

theorem get?_ofList {entries : List (κ × ν)} (h : (Assoc.keys entries).Nodup) (key : κ) :
    (ofList entries).get? key = Assoc.get? key entries := by
  rw [ofList, get?_foldl_insert h, get?_empty, Option.or_none]

omit [DecidableEq κ] in
theorem ofList_concat (entries : List (κ × ν)) (last : κ × ν) :
    ofList (entries ++ [last]) = (ofList entries).insert last.1 last.2 := by
  simp [ofList]

theorem isSome_get?_ofList {entries : List (κ × ν)} {key : κ} :
    ((ofList entries).get? key).isSome = true ↔ key ∈ Assoc.keys entries := by
  induction entries using List.reverseRecOn with
  | nil => simp [ofList, Assoc.keys]
  | append_singleton entries last ih =>
      rw [ofList_concat, isSome_get?_insert, ih, Assoc.keys, Assoc.keys, List.map_append,
        List.mem_append, List.map_singleton, List.mem_singleton]
      exact or_comm

theorem insert_mapValues {μ : Type} (f : ν → μ) (map : SortedMap κ ν) (key : κ) (value : ν) :
    (map.mapValues fun _ => f).insert key (f value) =
      (map.insert key value).mapValues fun _ => f := by
  refine ext_get? fun other => ?_
  rw [get?_insert, get?_mapValues, get?_mapValues, get?_insert]
  split <;> rfl

theorem ofList_mapValues {μ : Type} (f : ν → μ) (entries : List (κ × ν)) :
    ofList (entries.map fun entry => (entry.1, f entry.2)) =
      (ofList entries).mapValues fun _ => f := by
  induction entries using List.reverseRecOn with
  | nil => rfl
  | append_singleton entries last ih =>
      rw [List.map_append, List.map_singleton, ofList_concat, ofList_concat, ih]
      exact insert_mapValues f (ofList entries) last.1 last.2

theorem ofList_entries (map : SortedMap κ ν) : ofList map.entries = map :=
  ext_get? fun key => get?_ofList map.nodup_keys key

end SortedMap

end Relbase
