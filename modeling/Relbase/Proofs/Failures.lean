import Relbase.Proofs.Files
import Relbase.Proofs.Store.Layout
import Relbase.Table.RowFile

/-!
# Kinds of failures

A failure is reported or ends the program.  A reported failure is early if it is not one of
writing: then whatever was to be written had not been changed.  What a place of a database
can be refused for depends on its path alone.
-/

namespace Relbase

open Relbase.Action

/-! ## Kinds -/

namespace Failure

def IsReported : Failure → Prop
  | .reported _ => True
  | .unforeseen _ => False

/-- Whether a failure came up when what was changed had to be written: a row file was refused,
or a number had too many digits. -/
def isOfWriting : Failure → Bool
  | .reported (.storage (.file (.writeRows _) _)) => true
  | .unforeseen .oversizedInteger => true
  | _ => false

structure IsEarly (failure : Failure) : Prop where
  reported : failure.IsReported
  notOfWriting : failure.isOfWriting = false

end Failure

/-- Whether a command has taken effect: it has succeeded, or failed no earlier than when its
effect was written. -/
def tookEffect {α : Type} : Except Failure α → Bool
  | .ok _ => true
  | .error failure => failure.isOfWriting

/-! ## Well-formed places -/

namespace Place

theorem isMalformed_root (path : Text) : (root path).isMalformed = path.contains '\x00' := rfl

theorem isMalformed_child (directory : Place) {name : Text} (hname : IsStep name) :
    (directory.child name).isMalformed = (directory.isMalformed || name.contains '\x00') := by
  have hhead : name.head? ≠ some '/' := fun h => hname.no_slash (List.mem_of_mem_head? h)
  rw [child, if_neg hhead, isMalformed, isMalformed]
  dsimp only
  split
  · simp [List.contains_eq_mem]
  · simp [List.contains_eq_mem]

theorem isMalformed_file {path name file : Text} (hname : IsIdentifier name) (hfile : IsStep file)
    (hfree : '\x00' ∉ file) :
    (((root path).child name).child file).isMalformed = path.contains '\x00' := by
  have hnameFree : '\x00' ∉ name := hname.not_mem (by decide)
  rw [isMalformed_child _ hfile, isMalformed_child _ hname.isStep, isMalformed_root]
  simp [List.contains_eq_mem, hnameFree, hfree]

end Place

theorem IsIdentifier.notMem_rowFileName {key : Text} (h : IsIdentifier key) :
    '\x00' ∉ Database.rowFileName key := by
  rw [Database.rowFileName, List.mem_append, not_or]
  exact ⟨h.not_mem (by decide), by decide⟩

theorem notMem_metadataName : '\x00' ∉ Database.metadataName := by
  decide +kernel

/-! ## Files -/

namespace Files

variable {store : Store} {place : Place} {task : StorageTask}

def IsRefusal (task : StorageTask) (place : Place) (failure : Failure) : Prop :=
  ∃ cause, failure = .reported (.storage (.file task ⟨cause, place.path⟩))

theorem ensures_attempt {α : Type} (hformed : place.isMalformed = false)
    (operation : Store → Except FileCause α) :
    (attempt task place operation).Ensures store
      (fun result later => operation store = .ok result ∧ later = store)
      fun failure later => IsRefusal task place failure ∧ later = store := by
  refine ensures_of_runOn (runOn_attempt operation) (fun result h => ?_) fun failure h => ?_
  · cases hoperation : operation store <;> simp [hformed, hoperation] at h
    exact ⟨congrArg _ h, rfl⟩
  · cases hoperation : operation store with
    | ok result => simp [hformed, hoperation] at h
    | error cause =>
        simp only [hformed, hoperation, Bool.false_eq_true, if_false, Except.error.injEq] at h
        exact ⟨⟨cause, h.symm⟩, rfl⟩

theorem ensures_change_refusal (hformed : place.isMalformed = false)
    (operation : Store → Except FileCause Store) :
    (change task place operation).Ensures store (fun _ _ => True)
      fun failure _ => IsRefusal task place failure := by
  rw [change, ensures_bind]
  exact (ensures_attempt hformed operation).mono (fun _ _ _ => trivial) fun _ _ h => h.1

theorem ensures_readText_refusal (hformed : place.isMalformed = false)
    (htext : ∀ content, store.read place = .ok content → ∃ text, content = .text text) :
    (readText task place).Ensures store (fun _ _ => True)
      fun failure _ => IsRefusal task place failure := by
  rw [readText, ensures_bind]
  refine (ensures_attempt hformed _).mono (fun content later hread => ?_) fun _ _ h => h.1
  obtain ⟨text, rfl⟩ := htext content hread.1
  exact trivial

theorem ensures_readRows_refusal (hformed : place.isMalformed = false)
    (htext : ∀ content, store.read place = .ok content → ∃ text, content = .text text) :
    (readRows place).Ensures store (fun _ _ => True)
      fun failure _ => IsRefusal (.readRows place.path) place failure := by
  rw [readRows, ensures_bind]
  exact ensures_readText_refusal hformed htext

theorem runOn_readRows_snd : ((readRows place).runOn store).2 = store := by
  have hread : (readRows place).Ensures store (fun _ later => later = store)
      fun _ later => later = store := by
    rw [readRows, readText, ensures_bind, ensures_bind]
    refine ensures_of_runOn (runOn_attempt _) (fun content _ => ?_) fun _ _ => rfl
    split <;> rfl
  exact hread.finally

theorem IsRefusal.isReported {failure : Failure} (h : IsRefusal task place failure) :
    failure.IsReported := by
  obtain ⟨cause, rfl⟩ := h
  trivial

theorem IsRefusal.isEarly {failure : Failure} (h : IsRefusal (.readRows place.path) place failure) :
    failure.IsEarly := by
  obtain ⟨cause, rfl⟩ := h
  exact ⟨trivial, rfl⟩

theorem IsRefusal.isOfWriting {failure : Failure}
    (h : IsRefusal (.writeRows place.path) place failure) : failure.isOfWriting = true := by
  obtain ⟨cause, rfl⟩ := h
  rfl

end Files

end Relbase
