import Relbase.Files
import Relbase.Proofs.Action

/-!
# What the actions on files ensure

An action on a file reports what the store refuses and otherwise does what the store does;
a refused action leaves the store as it is.
-/

namespace Relbase.Files

open Relbase.Action

variable {store : Store} {place : Place} {task : StorageTask}

theorem runOn_attempt {α : Type} (operation : Store → Except FileCause α) :
    (attempt task place operation).runOn store =
      (if place.isMalformed then .error (.unforeseen .malformedPath)
      else
        match operation store with
        | .ok result => .ok result
        | .error cause => .error (.reported (.storage (.file task ⟨cause, place.path⟩))), store) := by
  rw [attempt]
  cases hformed : place.isMalformed with
  | true => rfl
  | false =>
      simp only [Bool.false_eq_true, if_false]
      rw [runOn_get_bind]
      cases operation store <;> rfl

theorem runOn_attempt_of_ok {α : Type} {operation : Store → Except FileCause α} {result : α}
    (hformed : place.isMalformed = false) (h : operation store = .ok result) :
    (attempt task place operation).runOn store = (.ok result, store) := by
  rw [runOn_attempt, hformed, h]
  rfl

theorem runOn_readText_of_ok {text : Text} (hformed : place.isMalformed = false)
    (h : store.read place = .ok (.text text)) :
    (readText task place).runOn store = (.ok text, store) := by
  rw [readText, runOn_bind_of_ok (runOn_attempt_of_ok hformed h)]
  rfl

theorem ensures_readText {done : Text → Store → Prop} {failed : Failure → Store → Prop}
    (hdone : ∀ text, place.isMalformed = false → store.read place = .ok (.text text) →
      done text store)
    (hfailed : ∀ failure, failed failure store) :
    (readText task place).Ensures store done failed := by
  rw [readText, ensures_bind]
  refine ensures_of_runOn (runOn_attempt _) (fun content hcontent => ?_) fun failure _ => hfailed failure
  cases hformed : place.isMalformed with
  | true => simp [hformed] at hcontent
  | false =>
      cases hread : store.read place <;> simp [hformed, hread] at hcontent
      subst hcontent
      split
      · exact hdone _ hformed hread
      · exact hfailed _

theorem ensures_readRows {done : RowFile → Store → Prop} {failed : Failure → Store → Prop}
    (hdone : ∀ file, done file store) (hfailed : ∀ failure, failed failure store) :
    (readRows place).Ensures store done failed := by
  rw [readRows, ensures_bind]
  exact ensures_readText (fun _ _ _ => hdone _) hfailed

theorem ensures_change {operation : Store → Except FileCause Store}
    {done : Unit → Store → Prop} {failed : Failure → Store → Prop}
    (hdone : ∀ later, place.isMalformed = false → operation store = .ok later → done () later)
    (hfailed : ∀ failure, (∀ later, place.isMalformed = false → operation store ≠ .ok later) →
      failed failure store) :
    (change task place operation).Ensures store done failed := by
  simp only [change, ensures_bind, ensures_set]
  refine ensures_of_runOn (runOn_attempt operation) (fun later h => ?_) fun failure h => ?_
  · cases hformed : place.isMalformed with
    | true => simp [hformed] at h
    | false =>
        cases hop : operation store <;> simp [hformed, hop] at h
        exact hdone later hformed (h ▸ hop)
  · refine hfailed failure fun later hformed hop => ?_
    simp [hformed, hop] at h

end Relbase.Files
