import Relbase.Database
import Relbase.Proofs.Text.Ascii
import Relbase.Proofs.Text.Split

/-!
# Where files lie

The places of a database, of its metadata file and of its row files, and the keys at which
the store finds them.  Whether a place can be reached depends on the lengths of its path
and its steps and on the directories that are passed.
-/

namespace Relbase

/-! ## Names -/

structure IsStep (name : Text) : Prop where
  ne_nil : name ≠ []
  ne_self : name ≠ ['.']
  ne_parent : name ≠ ['.', '.']
  no_slash : '/' ∉ name

theorem IsIdentifier.not_mem {name : Text} (h : IsIdentifier name) {c : Char}
    (hc : c.isAlphanum = false) : c ∉ name := fun hmem =>
  ne_of_isAlphanum (List.all_eq_true.1 h.alphanum c hmem) hc rfl

theorem IsIdentifier.isStep {name : Text} (h : IsIdentifier name) : IsStep name where
  ne_nil := h.ne_nil
  ne_self := fun heq => h.not_mem (c := '.') (by decide) (heq ▸ by decide)
  ne_parent := fun heq => h.not_mem (c := '.') (by decide) (heq ▸ by decide)
  no_slash := h.not_mem (by decide)

def Database.rowFileName (key : Text) : Text :=
  key ++ rowFileSuffix

theorem IsIdentifier.isStep_rowFileName {key : Text} (h : IsIdentifier key) :
    IsStep (Database.rowFileName key) where
  ne_nil := by simp [Database.rowFileName, Database.rowFileSuffix]
  ne_self := fun heq => by simpa [Database.rowFileName, Database.rowFileSuffix] using congrArg List.length heq
  ne_parent := fun heq => by simpa [Database.rowFileName, Database.rowFileSuffix] using congrArg List.length heq
  no_slash := by
    rw [Database.rowFileName, List.mem_append, not_or]
    exact ⟨h.not_mem (by decide), by decide⟩

theorem isStep_metadataName : IsStep Database.metadataName := by
  constructor <;> decide +kernel

theorem rowFileName_ne_metadataName (key : Text) :
    Database.rowFileName key ≠ Database.metadataName := by
  intro h
  have hlast := congrArg List.getLast? h
  rw [Database.rowFileName, List.getLast?_append_of_ne_nil key (by decide +kernel)] at hlast
  exact absurd hlast (by decide +kernel)

theorem rowFileName_inj {key other : Text}
    (h : Database.rowFileName key = Database.rowFileName other) : key = other :=
  List.append_cancel_right h

/-! ## Places -/

namespace Place

/-- A path that a file can have: without the forbidden character, and neither the path nor
one of its steps too long. -/
structure IsUsable (place : Place) : Prop where
  wellFormed : place.isMalformed = false
  path_le : Store.byteSize place.path ≤ Store.pathLimit
  steps_le : ∀ steps ∈ place.steps, ∀ step ∈ steps, Store.byteSize step ≤ Store.nameLimit

instance (place : Place) : Decidable place.IsUsable :=
  decidable_of_iff (place.isMalformed = false ∧ Store.byteSize place.path ≤ Store.pathLimit ∧
      ∀ steps ∈ place.steps, ∀ step ∈ steps, Store.byteSize step ≤ Store.nameLimit)
    ⟨fun ⟨hformed, hpath, hsteps⟩ => ⟨hformed, hpath, hsteps⟩, fun h => ⟨h.1, h.2, h.3⟩⟩

theorem steps_child {directory : Place} {name : Text} {steps : List Text} (hname : IsStep name)
    (hsteps : directory.steps = some steps) : (directory.child name).steps = some (steps ++ [name]) := by
  have hhead : name.head? ≠ some '/' := fun h => hname.no_slash (List.mem_of_mem_head? h)
  rw [child, if_neg hhead, hsteps, Text.splitOn_eq_singleton hname.no_slash]
  rfl

theorem steps_root (path : Text) : (root path).steps = some [] := rfl

theorem steps_root_child {path name : Text} (hname : IsStep name) :
    ((root path).child name).steps = some [name] :=
  steps_child hname (steps_root path)

theorem steps_root_child_child {path name file : Text} (hname : IsStep name) (hfile : IsStep file) :
    (((root path).child name).child file).steps = some [name, file] :=
  steps_child hfile (steps_root_child hname)

end Place

/-! ## Keys -/

namespace Store

theorem follow_cons_eq_ok {store : Store} {key found : Key} {step : Text} (hstep : IsStep step)
    {rest : List Text} :
    store.follow key (step :: rest) = .ok found ↔
      store.get? key = some .directory ∧ byteSize step ≤ nameLimit ∧
        store.follow (key ++ [step]) rest = .ok found := by
  rw [follow]
  cases hentry : store.get? key with
  | none => simp
  | some entry =>
      cases entry with
      | file content => simp
      | directory =>
          by_cases hsize : nameLimit < byteSize step
          · simp [hstep.ne_nil, hstep.ne_self, hstep.ne_parent, hsize, Nat.not_le.2 hsize]
          · simp [hstep.ne_nil, hstep.ne_self, hstep.ne_parent, hsize, Nat.not_lt.1 hsize]

theorem locate_eq_ok {store : Store} {place : Place} {steps : List Text} {key : Key}
    (hsteps : place.steps = some steps) :
    store.locate place = .ok key ↔
      byteSize place.path ≤ pathLimit ∧ store.follow [] steps = .ok key := by
  rw [locate, hsteps]
  by_cases hpath : pathLimit < byteSize place.path
  · simp [hpath, Nat.not_le.2 hpath]
  · simp [hpath, Nat.not_lt.1 hpath]

/-! ## Operations -/

variable {store later : Store} {place : Place}

theorem read_eq_ok {content : Content} :
    store.read place = .ok content ↔
      ∃ key, store.locate place = .ok key ∧ store.get? key = some (.file content) := by
  rw [read]
  cases store.locate place with
  | error cause => simp [bind, Except.bind]
  | ok key =>
      simp only [bind, Except.bind, Except.ok.injEq, exists_eq_left']
      rcases store.get? key with _ | _ | found <;> simp

theorem write_eq_ok {content : Content} :
    store.write place content = .ok later ↔
      ∃ key, store.locate place = .ok key ∧ store.get? key ≠ some .directory ∧
        later = store.insert key (.file content) := by
  rw [write]
  cases store.locate place with
  | error cause => simp [bind, Except.bind]
  | ok key =>
      simp only [bind, Except.bind, Except.ok.injEq, exists_eq_left']
      rcases store.get? key with _ | _ | content <;> simp [eq_comm]

theorem remove_eq_ok :
    store.remove place = .ok later ↔
      ∃ key, store.locate place = .ok key ∧ (∃ content, store.get? key = some (.file content)) ∧
        later = store.erase key := by
  rw [remove]
  cases store.locate place with
  | error cause => simp [bind, Except.bind]
  | ok key =>
      simp only [bind, Except.bind, Except.ok.injEq, exists_eq_left']
      rcases store.get? key with _ | _ | content <;> simp [eq_comm]

theorem makeDirectory_eq_ok (hroot : store.get? [] = some .directory) :
    store.makeDirectory place = .ok later ↔
      ∃ key, store.locate place = .ok key ∧
        (store.get? key = none ∧ later = store.insert key .directory ∨
          store.get? key = some .directory ∧ later = store) := by
  have hwith : store.withRoot = store := by simp [withRoot, SortedMap.contains, hroot]
  rw [makeDirectory, hwith]
  cases store.locate place with
  | error cause => simp [bind, Except.bind]
  | ok key =>
      simp only [bind, Except.bind, Except.ok.injEq, exists_eq_left']
      rcases store.get? key with _ | _ | content <;> simp [eq_comm]

theorem removeTree_eq_ok :
    store.removeTree place = .ok later ↔
      ∃ key, store.locate place = .ok key ∧ store.get? key = some .directory ∧
        later = store.filter fun other _ => !key.isPrefixOf other := by
  rw [removeTree]
  cases store.locate place with
  | error cause => simp [bind, Except.bind]
  | ok key =>
      simp only [bind, Except.bind, Except.ok.injEq, exists_eq_left']
      rcases store.get? key with _ | _ | content <;> simp [eq_comm]

theorem entryAt?_eq_some {entry : Entry} :
    store.entryAt? place = some entry ↔
      place.isMalformed = false ∧ ∃ key, store.locate place = .ok key ∧ store.get? key = some entry := by
  rw [entryAt?]
  cases place.isMalformed with
  | true => simp
  | false => cases store.locate place <;> simp

end Store

/-! ## Databases and their files -/

namespace Place

variable {store : Store} {path name file : Text} {key : Key}

theorem isUsable_directory (hname : IsStep name) :
    ((root path).child name).IsUsable ↔
      ((root path).child name).isMalformed = false ∧
        Store.byteSize ((root path).child name).path ≤ Store.pathLimit ∧
          Store.byteSize name ≤ Store.nameLimit := by
  constructor
  · rintro ⟨hformed, hpath, hsteps⟩
    exact ⟨hformed, hpath, hsteps _ (steps_root_child hname) name List.mem_cons_self⟩
  · rintro ⟨hformed, hpath, hsize⟩
    refine ⟨hformed, hpath, fun steps hsteps step hstep => ?_⟩
    rw [steps_root_child hname] at hsteps
    cases hsteps
    rwa [List.mem_singleton.1 hstep]

theorem isUsable_file (hname : IsStep name) (hfile : IsStep file) :
    (((root path).child name).child file).IsUsable ↔
      (((root path).child name).child file).isMalformed = false ∧
        Store.byteSize (((root path).child name).child file).path ≤ Store.pathLimit ∧
          Store.byteSize name ≤ Store.nameLimit ∧ Store.byteSize file ≤ Store.nameLimit := by
  constructor
  · rintro ⟨hformed, hpath, hsteps⟩
    have hsize := hsteps _ (steps_root_child_child hname hfile)
    exact ⟨hformed, hpath, hsize name (by simp), hsize file (by simp)⟩
  · rintro ⟨hformed, hpath, hsize, hsizeFile⟩
    refine ⟨hformed, hpath, fun steps hsteps step hstep => ?_⟩
    rw [steps_root_child_child hname hfile] at hsteps
    cases hsteps
    rcases List.mem_cons.1 hstep with rfl | hstep
    · exact hsize
    · rwa [List.mem_singleton.1 hstep]

theorem locate_directory (hname : IsStep name) (hroot : store.get? [] = some .directory)
    (hformed : ((root path).child name).isMalformed = false) :
    store.locate ((root path).child name) = .ok key ↔
      ((root path).child name).IsUsable ∧ key = [name] := by
  rw [Store.locate_eq_ok (steps_root_child hname), Store.follow_cons_eq_ok hname,
    isUsable_directory hname]
  simp only [hroot, hformed, Store.follow, List.nil_append, Except.ok.injEq, true_and, and_assoc,
    eq_comm]

theorem locate_file (hname : IsStep name) (hfile : IsStep file)
    (hroot : store.get? [] = some .directory)
    (hformed : (((root path).child name).child file).isMalformed = false) :
    store.locate (((root path).child name).child file) = .ok key ↔
      (((root path).child name).child file).IsUsable ∧ store.get? [name] = some .directory ∧
        key = [name, file] := by
  rw [Store.locate_eq_ok (steps_root_child_child hname hfile), Store.follow_cons_eq_ok hname,
    Store.follow_cons_eq_ok hfile, isUsable_file hname hfile]
  simp only [hroot, hformed, Store.follow, List.nil_append, List.singleton_append, Except.ok.injEq,
    true_and, eq_comm]
  tauto

theorem path_child (directory : Place) (hname : IsStep name) :
    ∃ rest, (directory.child name).path = directory.path ++ rest := by
  have hhead : name.head? ≠ some '/' := fun h => hname.no_slash (List.mem_of_mem_head? h)
  rw [child, if_neg hhead]
  dsimp only
  split
  · exact ⟨name, rfl⟩
  · exact ⟨'/' :: name, rfl⟩

theorem byteSize_le_append (first second : Text) :
    Store.byteSize first ≤ Store.byteSize (first ++ second) := by
  have hfold : ∀ (text : Text) (size : Nat),
      size ≤ text.foldl (fun size c => size + c.utf8Size) size := by
    intro text
    induction text with
    | nil => exact fun size => Nat.le_refl size
    | cons c rest ih => exact fun size => Nat.le_trans (Nat.le_add_right size c.utf8Size) (ih _)
  rw [Store.byteSize, Store.byteSize, List.foldl_append]
  exact hfold second _

theorem IsUsable.directory (hname : IsStep name) (hfile : IsStep file)
    (h : (((root path).child name).child file).IsUsable) : ((root path).child name).IsUsable := by
  obtain ⟨rest, hrest⟩ := path_child ((root path).child name) hfile
  obtain ⟨hformed, hpath, hsize, _⟩ := (isUsable_file hname hfile).1 h
  refine (isUsable_directory hname).2 ⟨?_, ?_, hsize⟩
  · rw [isMalformed, hrest] at hformed
    rw [isMalformed]
    simp only [List.contains_eq_mem, List.mem_append, decide_eq_false_iff_not, not_or] at hformed ⊢
    exact hformed.1
  · rw [hrest] at hpath
    exact Nat.le_trans (byteSize_le_append _ rest) hpath

end Place

end Relbase
