import Relbase.Proofs.Store.Layout
import Relbase.Proofs.Table.Description

/-!
# Orderly stores

Below the root lie the directories of databases and in them nothing but files.  Every
file is where a file can be, and a metadata file holds what was written to describe sound
schemas.
-/

namespace Relbase

namespace Store

structure IsOrderly (path : Text) (store : Store) : Prop where
  root : store.get? [] = some .directory
  depth : ∀ key entry, store.get? key = some entry → key.length ≤ 2
  directory : ∀ name entry, store.get? [name] = some entry → entry = .directory ∧ IsIdentifier name
  parent : ∀ name file entry, store.get? [name, file] = some entry →
    store.get? [name] = some .directory
  file : ∀ name file entry, store.get? [name, file] = some entry →
    ∃ text, entry = .file (.text text)
  usable : ∀ name file entry, store.get? [name, file] = some entry →
    IsStep file ∧ (((Place.root path).child name).child file).IsUsable
  metadata : ∀ name entry, store.get? [name, Database.metadataName] = some entry →
    ∃ schemas, SoundSchemas schemas ∧ entry = .file (.text (metadataText schemas))

variable {path name file : Text} {store : Store}

theorem isOrderly_emptyRoot (path : Text) : emptyRoot.IsOrderly path := by
  have hroot {key : Key} {entry : Entry} (h : emptyRoot.get? key = some entry) : key = [] := by
    rw [emptyRoot, SortedMap.get?_insert] at h
    split at h
    · exact Eq.symm ‹_›
    · cases h
  refine ⟨rfl, fun key entry h => ?_, ?_, ?_, ?_, ?_, ?_⟩
  · simp [hroot h]
  all_goals
    intros
    rename_i h
    cases hroot h

namespace IsOrderly

theorem insertFile (h : store.IsOrderly path) (hparent : store.get? [name] = some .directory)
    (hstep : IsStep file) (husable : (((Place.root path).child name).child file).IsUsable)
    {text : Text} (hmetadata : file = Database.metadataName →
      ∃ schemas, SoundSchemas schemas ∧ text = metadataText schemas) :
    IsOrderly path (store.insert [name, file] (.file (.text text))) := by
  have hother {key : Key} (hkey : [name, file] ≠ key) :
      (store.insert [name, file] (.file (.text text))).get? key = store.get? key := by
    rw [SortedMap.get?_insert, if_neg hkey]
  have hnew {key : Key} {entry : Entry}
      (hentry : (store.insert [name, file] (.file (.text text))).get? key = some entry) :
      ([name, file] = key ∧ entry = .file (.text text)) ∨ store.get? key = some entry := by
    rw [SortedMap.get?_insert] at hentry
    split at hentry
    · exact .inl ⟨‹_›, (Option.some.inj hentry).symm⟩
    · exact .inr hentry
  refine ⟨(hother (by simp)).trans h.root, fun key entry hentry => ?_, fun other entry hentry => ?_,
    fun other inner entry hentry => ?_, fun other inner entry hentry => ?_,
    fun other inner entry hentry => ?_, fun other entry hentry => ?_⟩
  · rcases hnew hentry with ⟨rfl, _⟩ | hold
    · simp
    · exact h.depth key entry hold
  · rw [hother (by simp)] at hentry
    exact h.directory other entry hentry
  · rw [hother (by simp)]
    rcases hnew hentry with ⟨hkey, _⟩ | hold
    · obtain ⟨rfl, _⟩ := List.cons.inj hkey
      exact hparent
    · exact h.parent other inner entry hold
  · rcases hnew hentry with ⟨_, hentry⟩ | hold
    · exact ⟨text, hentry⟩
    · exact h.file other inner entry hold
  · rcases hnew hentry with ⟨hkey, _⟩ | hold
    · simp only [List.cons.injEq, and_true] at hkey
      obtain ⟨rfl, rfl⟩ := hkey
      exact ⟨hstep, husable⟩
    · exact h.usable other inner entry hold
  · rcases hnew hentry with ⟨hkey, hentry⟩ | hold
    · simp only [List.cons.injEq, and_true] at hkey
      obtain ⟨schemas, hsound, htext⟩ := hmetadata hkey.2
      exact ⟨schemas, hsound, htext ▸ hentry⟩
    · exact h.metadata other entry hold

/-- What remains of an orderly store is orderly if directories go with their files. -/
theorem restrict (h : store.IsOrderly path) {later : Store} (hroot : later.get? [] = store.get? [])
    (hsome : ∀ key entry, later.get? key = some entry → store.get? key = some entry)
    (hparent : ∀ name file entry, later.get? [name, file] = some entry →
      later.get? [name] = store.get? [name]) : later.IsOrderly path where
  root := hroot.trans h.root
  depth key entry hentry := h.depth key entry (hsome key entry hentry)
  directory name entry hentry := h.directory name entry (hsome _ _ hentry)
  parent name file entry hentry :=
    (hparent name file entry hentry).trans (h.parent name file entry (hsome _ _ hentry))
  file name file entry hentry := h.file name file entry (hsome _ _ hentry)
  usable name file entry hentry := h.usable name file entry (hsome _ _ hentry)
  metadata name entry hentry := h.metadata name entry (hsome _ _ hentry)

theorem eraseFile (h : store.IsOrderly path) : IsOrderly path (store.erase [name, file]) := by
  exact h.restrict (by simp) (fun _ _ hentry => (SortedMap.get?_erase_eq_some_iff.1 hentry).2)
    fun other inner entry _ => by simp

theorem insertDirectory (h : store.IsOrderly path) (hname : IsIdentifier name)
    (hnone : store.get? [name] = none) : IsOrderly path (store.insert [name] .directory) := by
  have hfiles (file : Text) : store.get? [name, file] = none := by
    cases hentry : store.get? [name, file] with
    | none => rfl
    | some entry =>
        rw [h.parent name file entry hentry] at hnone
        cases hnone
  have hother {key : Key} (hkey : [name] ≠ key) :
      (store.insert [name] .directory).get? key = store.get? key := by
    rw [SortedMap.get?_insert, if_neg hkey]
  refine ⟨(hother (by simp)).trans h.root, fun key entry hentry => ?_, fun other entry hentry => ?_,
    fun other inner entry hentry => ?_, fun other inner entry hentry => ?_,
    fun other inner entry hentry => ?_, fun other entry hentry => ?_⟩
  · by_cases hkey : [name] = key
    · simp [← hkey]
    · rw [hother hkey] at hentry
      exact h.depth key entry hentry
  · by_cases hkey : [name] = [other]
    · rw [SortedMap.get?_insert, if_pos hkey] at hentry
      cases hkey
      exact ⟨(Option.some.inj hentry).symm, hname⟩
    · rw [hother hkey] at hentry
      exact h.directory other entry hentry
  · rw [hother (by simp)] at hentry
    by_cases hkey : [name] = [other]
    · rw [SortedMap.get?_insert, if_pos hkey]
    · rw [hother hkey]
      exact h.parent other inner entry hentry
  all_goals rw [hother (by simp)] at hentry
  · exact h.file other inner entry hentry
  · exact h.usable other inner entry hentry
  · exact h.metadata other entry hentry

theorem removeTree (h : store.IsOrderly path) (name : Text) :
    IsOrderly path (store.filter fun key _ => !List.isPrefixOf [name] key) := by
  have hget (key : Key) := store.get?_filter (fun key => !List.isPrefixOf [name] key) key
  refine h.restrict (by simp [hget]) (fun key entry hentry => ?_) fun other inner entry hentry => ?_
  · rw [hget] at hentry
    split at hentry
    · exact hentry
    · cases hentry
  · rw [hget] at hentry ⊢
    by_cases hkey : name = other
    · simp [hkey] at hentry
    · simp [hkey]

end IsOrderly

end Store

end Relbase
