import Relbase.Map.Assoc

/-!
# Maps in key order

A list of entries whose keys ascend strictly.  Since a set of keys has one
ascending list, two maps with the same look-ups are equal: `SortedMap.ext_get?`.
-/

namespace Relbase

def Ascending {κ ν : Type} [Ord κ] (entries : List (κ × ν)) : Prop :=
  entries.Pairwise fun first second => compare first.1 second.1 = .lt

structure SortedMap (κ ν : Type) [Ord κ] where
  entries : List (κ × ν)
  ascending : Ascending entries

namespace SortedMap

variable {κ ν μ : Type} [Ord κ]

def empty : SortedMap κ ν :=
  ⟨[], List.Pairwise.nil⟩

theorem ext_entries {first second : SortedMap κ ν} (h : first.entries = second.entries) :
    first = second := by
  cases first
  cases second
  cases h
  rfl

instance [DecidableEq κ] [DecidableEq ν] : DecidableEq (SortedMap κ ν) := fun first second =>
  decidable_of_iff (first.entries = second.entries) ⟨ext_entries, fun h => h ▸ rfl⟩

instance [Repr κ] [Repr ν] : Repr (SortedMap κ ν) :=
  ⟨fun map depth => reprPrec map.entries depth⟩

def keys (map : SortedMap κ ν) : List κ :=
  Assoc.keys map.entries

def filter (test : κ → ν → Bool) (map : SortedMap κ ν) : SortedMap κ ν :=
  ⟨map.entries.filter fun entry => test entry.1 entry.2, map.ascending.sublist List.filter_sublist⟩

def mapValues (f : κ → ν → μ) (map : SortedMap κ ν) : SortedMap κ μ :=
  ⟨map.entries.map fun entry => (entry.1, f entry.1 entry.2),
    List.pairwise_map.2 (map.ascending.imp fun h => h)⟩

/-! ## Insertion -/

/-- Put an entry in its place, in front of the first larger key and instead of
an equal one. -/
def insertEntry (key : κ) (value : ν) : List (κ × ν) → List (κ × ν)
  | [] => [(key, value)]
  | entry :: rest =>
      match compare key entry.1 with
      | .lt => (key, value) :: entry :: rest
      | .eq => (key, value) :: rest
      | .gt => entry :: insertEntry key value rest

theorem mem_insertEntry {key : κ} {value : ν} {entries : List (κ × ν)} {entry : κ × ν}
    (h : entry ∈ insertEntry key value entries) : entry = (key, value) ∨ entry ∈ entries := by
  induction entries with
  | nil => simpa [insertEntry] using h
  | cons first rest ih =>
      simp only [insertEntry] at h
      split at h
      · simpa using h
      · rcases List.mem_cons.1 h with h | h
        · exact .inl h
        · exact .inr (List.mem_cons_of_mem _ h)
      · rcases List.mem_cons.1 h with h | h
        · exact .inr (h ▸ List.mem_cons_self)
        · exact (ih h).imp id (List.mem_cons_of_mem _)

variable [Std.TransOrd κ] [Std.LawfulEqOrd κ]

theorem ascending_insertEntry (key : κ) (value : ν) {entries : List (κ × ν)}
    (h : Ascending entries) : Ascending (insertEntry key value entries) := by
  induction entries with
  | nil => simp [insertEntry, Ascending]
  | cons first rest ih =>
      obtain ⟨hfirst, hrest⟩ := List.pairwise_cons.1 h
      simp only [insertEntry]
      split
      · rename_i hlt
        refine List.pairwise_cons.2 ⟨fun entry hentry => ?_, h⟩
        rcases List.mem_cons.1 hentry with rfl | hentry
        · exact hlt
        · exact Std.TransCmp.lt_trans hlt (hfirst entry hentry)
      · rename_i heq
        have hkey : key = first.1 := Std.LawfulEqCmp.eq_of_compare heq
        exact List.pairwise_cons.2 ⟨fun entry hentry => hkey ▸ hfirst entry hentry, hrest⟩
      · rename_i hgt
        refine List.pairwise_cons.2 ⟨fun entry hentry => ?_, ih hrest⟩
        rcases mem_insertEntry hentry with rfl | hentry
        · exact Std.OrientedCmp.lt_of_gt hgt
        · exact hfirst entry hentry

def insert (map : SortedMap κ ν) (key : κ) (value : ν) : SortedMap κ ν :=
  ⟨insertEntry key value map.entries, ascending_insertEntry key value map.ascending⟩

def ofList (entries : List (κ × ν)) : SortedMap κ ν :=
  entries.foldl (fun map entry => map.insert entry.1 entry.2) empty

/-! ## Look-ups -/

section

omit [Std.TransOrd κ] [Std.LawfulEqOrd κ]

variable [DecidableEq κ]

def get? (map : SortedMap κ ν) (key : κ) : Option ν :=
  Assoc.get? key map.entries

def contains (map : SortedMap κ ν) (key : κ) : Bool :=
  (map.get? key).isSome

def erase (map : SortedMap κ ν) (key : κ) : SortedMap κ ν :=
  map.filter fun other _ => decide (other ≠ key)

@[simp] theorem get?_empty (key : κ) : (empty : SortedMap κ ν).get? key = none := rfl

@[simp] theorem get?_erase (map : SortedMap κ ν) (key other : κ) :
    (map.erase key).get? other = if key = other then none else map.get? other :=
  Assoc.get?_erase key other map.entries

@[simp] theorem get?_mapValues (f : κ → ν → μ) (map : SortedMap κ ν) (key : κ) :
    (map.mapValues f).get? key = (map.get? key).map (f key) :=
  Assoc.get?_mapValues f key map.entries

end

variable [DecidableEq κ]

omit [Std.TransOrd κ] in
theorem get?_insertEntry (key other : κ) (value : ν) (entries : List (κ × ν)) :
    Assoc.get? other (insertEntry key value entries) =
      if key = other then some value else Assoc.get? other entries := by
  induction entries with
  | nil => simp [insertEntry, Assoc.get?]
  | cons first rest ih =>
      simp only [insertEntry]
      split
      · by_cases h : key = other <;> simp [Assoc.get?, h]
      · rename_i heq
        have hkey : key = first.1 := Std.LawfulEqCmp.eq_of_compare heq
        by_cases h : first.1 = other <;> simp [Assoc.get?, hkey, h]
      · rename_i hgt
        have hne : first.1 ≠ key := by
          rintro rfl
          simp [Std.ReflCmp.compare_self] at hgt
        by_cases h : key = other
        · subst h
          simp [Assoc.get?, ih, hne]
        · simp [Assoc.get?, ih, h]

@[simp] theorem get?_insert (map : SortedMap κ ν) (key other : κ) (value : ν) :
    (map.insert key value).get? other = if key = other then some value else map.get? other :=
  get?_insertEntry key other value map.entries

omit [Std.TransOrd κ] in
theorem get?_eq_none_of_lt {key : κ} {entries : List (κ × ν)}
    (h : ∀ entry ∈ entries, compare key entry.1 = .lt) : Assoc.get? key entries = none := by
  induction entries with
  | nil => rfl
  | cons first rest ih =>
      have hne : first.1 ≠ key := by
        rintro rfl
        have := h first List.mem_cons_self
        simp [Std.ReflCmp.compare_self] at this
      simp only [Assoc.get?, if_neg hne]
      exact ih fun entry hentry => h entry (List.mem_cons_of_mem _ hentry)

theorem entries_eq_of_get?_eq {first second : List (κ × ν)} (hfirst : Ascending first)
    (hsecond : Ascending second) (h : ∀ key, Assoc.get? key first = Assoc.get? key second) :
    first = second := by
  induction first generalizing second with
  | nil =>
      cases second with
      | nil => rfl
      | cons entry rest => simpa [Assoc.get?] using h entry.1
  | cons a as ih =>
      cases second with
      | nil => simpa [Assoc.get?] using h a.1
      | cons b bs =>
          obtain ⟨ha, has⟩ := List.pairwise_cons.1 hfirst
          obtain ⟨hb, hbs⟩ := List.pairwise_cons.1 hsecond
          have hkeys : a.1 = b.1 := by
            refine Classical.byContradiction fun hne => ?_
            cases hcmp : compare a.1 b.1 with
            | eq => exact hne (Std.LawfulEqCmp.eq_of_compare hcmp)
            | lt =>
                have hnone : Assoc.get? a.1 (b :: bs) = none :=
                  get?_eq_none_of_lt fun entry hentry => by
                    rcases List.mem_cons.1 hentry with rfl | hentry
                    · exact hcmp
                    · exact Std.TransCmp.lt_trans hcmp (hb entry hentry)
                have := h a.1
                rw [hnone] at this
                simp [Assoc.get?] at this
            | gt =>
                have hlt := Std.OrientedCmp.lt_of_gt hcmp
                have hnone : Assoc.get? b.1 (a :: as) = none :=
                  get?_eq_none_of_lt fun entry hentry => by
                    rcases List.mem_cons.1 hentry with rfl | hentry
                    · exact hlt
                    · exact Std.TransCmp.lt_trans hlt (ha entry hentry)
                have := h b.1
                rw [hnone] at this
                simp [Assoc.get?] at this
          have hvalues : a.2 = b.2 := by
            have := h a.1
            simpa [Assoc.get?, hkeys] using this
          have hrest : as = bs := by
            refine ih has hbs fun key => ?_
            by_cases hkey : a.1 = key
            · subst hkey
              rw [get?_eq_none_of_lt ha,
                get?_eq_none_of_lt fun entry hentry => hkeys ▸ hb entry hentry]
            · have := h key
              simpa [Assoc.get?, hkey, hkeys ▸ hkey] using this
          rw [hrest, Prod.ext hkeys hvalues]

theorem ext_get? {first second : SortedMap κ ν} (h : ∀ key, first.get? key = second.get? key) :
    first = second :=
  ext_entries (entries_eq_of_get?_eq first.ascending second.ascending h)

end SortedMap

end Relbase
