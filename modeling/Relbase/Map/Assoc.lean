/-!
# Association lists

Entries of a key and a value.  A look-up finds the first entry with a key;
putting a value under a key that is present replaces it where it stands, and a
new key goes to the end.
-/

namespace Relbase.Assoc

variable {κ ν μ : Type} [DecidableEq κ]

def get? (key : κ) : List (κ × ν) → Option ν
  | [] => none
  | entry :: rest => if entry.1 = key then some entry.2 else get? key rest

def put (key : κ) (value : ν) : List (κ × ν) → List (κ × ν)
  | [] => [(key, value)]
  | entry :: rest =>
      if entry.1 = key then (key, value) :: rest else entry :: put key value rest

def erase (key : κ) (entries : List (κ × ν)) : List (κ × ν) :=
  entries.filter fun entry => entry.1 ≠ key

/-- Every entry put in turn: a key keeps the place of its first entry and the
value of its last. -/
def ofList (entries : List (κ × ν)) : List (κ × ν) :=
  entries.foldl (fun map entry => put entry.1 entry.2 map) []

omit [DecidableEq κ] in
def keys (entries : List (κ × ν)) : List κ :=
  entries.map Prod.fst

/-! ## Keys -/

theorem keys_put (key : κ) (value : ν) (entries : List (κ × ν)) :
    keys (put key value entries) =
      if key ∈ keys entries then keys entries else keys entries ++ [key] := by
  induction entries with
  | nil => simp [put, keys]
  | cons entry rest ih =>
      by_cases h : entry.1 = key
      · simp [put, keys, h]
      · have hne : key ≠ entry.1 := fun e => h e.symm
        have hkeys : keys (entry :: rest) = entry.1 :: keys rest := rfl
        have hput :
            keys (put key value (entry :: rest)) = entry.1 :: keys (put key value rest) := by
          simp [put, h, keys]
        by_cases hmem : key ∈ keys rest
        · simp [hput, hkeys, ih, hmem]
        · simp [hput, hkeys, ih, hmem, hne]

theorem nodup_keys_put (key : κ) (value : ν) {entries : List (κ × ν)}
    (h : (keys entries).Nodup) : (keys (put key value entries)).Nodup := by
  rw [keys_put]
  split
  · exact h
  · rename_i hmem
    exact List.nodup_append.2 ⟨h, by simp, fun a ha b hb => by
      simp only [List.mem_singleton] at hb
      exact fun e => hmem (hb ▸ e ▸ ha)⟩

theorem nodup_keys_erase (key : κ) {entries : List (κ × ν)}
    (h : (keys entries).Nodup) : (keys (erase key entries)).Nodup :=
  List.Nodup.sublist (List.Sublist.map _ List.filter_sublist) h

/-! ## Look-ups -/

theorem get?_put (key other : κ) (value : ν) (entries : List (κ × ν)) :
    get? other (put key value entries) =
      if key = other then some value else get? other entries := by
  induction entries with
  | nil => simp [put, get?]
  | cons entry rest ih =>
      by_cases hentry : entry.1 = key
      · by_cases hother : key = other <;> simp [put, get?, hentry, hother]
      · by_cases hother : key = other
        · subst hother
          simp [put, get?, hentry, ih]
        · simp [put, get?, hentry, ih, hother]

theorem get?_filter (test : κ → Bool) (key : κ) (entries : List (κ × ν)) :
    get? key (entries.filter fun entry => test entry.1) =
      if test key then get? key entries else none := by
  induction entries with
  | nil => simp [get?]
  | cons entry rest ih =>
      by_cases hkey : entry.1 = key
      · subst hkey
        by_cases htest : test entry.1 = true <;> simp_all [get?]
      · by_cases htest : test entry.1 = true <;> simp [htest, get?, hkey, ih]

theorem get?_erase (key other : κ) (entries : List (κ × ν)) :
    get? other (erase key entries) = if key = other then none else get? other entries := by
  have h := get?_filter (fun k => decide (k ≠ key)) other entries
  rw [erase, h]
  by_cases hkey : key = other
  · simp [hkey]
  · simp [hkey, Ne.symm hkey]

theorem get?_mapValues (f : κ → ν → μ) (key : κ) (entries : List (κ × ν)) :
    get? key (entries.map fun entry => (entry.1, f entry.1 entry.2)) =
      (get? key entries).map (f key) := by
  induction entries with
  | nil => rfl
  | cons entry rest ih =>
      by_cases h : entry.1 = key
      · simp [get?, h]
      · simp [get?, h, ih]

theorem get?_eq_none_iff {key : κ} {entries : List (κ × ν)} :
    get? key entries = none ↔ key ∉ keys entries := by
  induction entries with
  | nil => simp [get?, keys]
  | cons entry rest ih =>
      have hkeys : keys (entry :: rest) = entry.1 :: keys rest := rfl
      by_cases h : entry.1 = key
      · simp [get?, hkeys, h]
      · simp [get?, hkeys, h, ih, Ne.symm h]

end Relbase.Assoc
