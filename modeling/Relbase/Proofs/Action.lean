import Relbase.Failure

/-!
# Reasoning about actions

`Ensures` says what holds of the result and the state of an action that succeeds, and of
the failure and the state of one that does not.  One rule for every way to build an
action reduces a statement about a composed action to statements about its parts.
-/

namespace Relbase

theorem exists_of_isOk {ε α : Type} {outcome : Except ε α} (h : outcome.isOk = true) :
    ∃ result, outcome = .ok result := by
  cases outcome with
  | ok result => exact ⟨result, rfl⟩
  | error error => cases h

theorem exists_of_not_isOk {ε α : Type} {outcome : Except ε α} (h : outcome.isOk = false) :
    ∃ error, outcome = .error error := by
  cases outcome with
  | ok result => cases h
  | error error => exact ⟨error, rfl⟩

theorem eq_ok_of_toOption {ε α : Type} {outcome : Except ε α} {result : α}
    (h : outcome.toOption = some result) : outcome = .ok result := by
  cases outcome with
  | ok found => exact congrArg Except.ok (Option.some.inj h)
  | error error => cases h

theorem exists_ok_of_any {ε α : Type} {outcome : Except ε α} {test : α → Bool}
    (h : outcome.toOption.any test = true) : ∃ result, outcome = .ok result ∧ test result = true := by
  obtain ⟨result, hresult, htest⟩ := (Option.any_eq_true _ _).1 h
  exact ⟨result, eq_ok_of_toOption hresult, htest⟩

namespace Action

variable {σ τ α β : Type}

/-! ## Runs -/

@[simp] theorem runOn_pure (result : α) (state : σ) :
    (pure result : Action σ α).runOn state = (.ok result, state) := rfl

@[simp] theorem runOn_ofOutcome (outcome : Except Failure α) (state : σ) :
    (ofOutcome outcome : Action σ α).runOn state = (outcome, state) := rfl

theorem runOn_bind (action : Action σ α) (next : α → Action σ β) (state : σ) :
    (action >>= next).runOn state =
      match action.runOn state with
      | (.ok result, later) => (next result).runOn later
      | (.error failure, later) => (.error failure, later) := by
  unfold runOn ExceptT.run StateT.run
  simp only [bind, ExceptT.bind, ExceptT.mk, StateT.bind, ExceptT.bindCont]
  rcases action state with ⟨outcome, later⟩
  cases outcome <;> rfl

theorem runOn_bind_of_ok {action : Action σ α} {next : α → Action σ β} {state later : σ}
    {result : α} (h : action.runOn state = (.ok result, later)) :
    (action >>= next).runOn state = (next result).runOn later := by
  rw [runOn_bind, h]

theorem runOn_get_bind (next : σ → Action σ α) (state : σ) :
    ((get : Action σ σ) >>= next).runOn state = (next state).runOn state := rfl

theorem runOn_within (part : σ → τ) (replace : τ → σ → σ) (action : Action τ α) (state : σ) :
    (action.within part replace).runOn state =
      ((action.runOn (part state)).1, replace (action.runOn (part state)).2 state) := rfl

/-! ## What an action ensures -/

/-- What holds after an action that was run on a state. -/
def Ensures (action : Action σ α) (state : σ) (done : α → σ → Prop)
    (failed : Failure → σ → Prop) : Prop :=
  match action.runOn state with
  | (.ok result, later) => done result later
  | (.error failure, later) => failed failure later

variable {done : α → σ → Prop} {failed : Failure → σ → Prop} {state : σ}

theorem Ensures.of_ok {action : Action σ α} {result : α} {later : σ}
    (h : action.Ensures state done failed) (hrun : action.runOn state = (.ok result, later)) :
    done result later := by
  rwa [Ensures, hrun] at h

theorem Ensures.mono {action : Action σ α} {done' : α → σ → Prop} {failed' : Failure → σ → Prop}
    (h : action.Ensures state done failed)
    (hdone : ∀ result later, done result later → done' result later)
    (hfailed : ∀ failure later, failed failure later → failed' failure later) :
    action.Ensures state done' failed' := by
  unfold Ensures at h ⊢
  split at h
  · exact hdone _ _ h
  · exact hfailed _ _ h

theorem Ensures.and {action : Action σ α} {done' : α → σ → Prop} {failed' : Failure → σ → Prop}
    (h : action.Ensures state done failed) (h' : action.Ensures state done' failed') :
    action.Ensures state (fun result later => done result later ∧ done' result later)
      fun failure later => failed failure later ∧ failed' failure later := by
  unfold Ensures at h h' ⊢
  split at h <;> simp_all

theorem Ensures.of_error {action : Action σ α} {failure : Failure} {later : σ}
    (h : action.Ensures state done failed) (hrun : action.runOn state = (.error failure, later)) :
    failed failure later := by
  rwa [Ensures, hrun] at h

/-- What holds of the state however an action ends. -/
theorem Ensures.finally {action : Action σ α} {P : σ → Prop}
    (h : action.Ensures state (fun _ later => P later) fun _ later => P later) :
    P (action.runOn state).2 := by
  unfold Ensures at h
  split at h <;> rename_i hrun <;> rwa [hrun]

theorem ensures_of_runOn {action : Action σ α} {outcome : Except Failure α} {later : σ}
    (hrun : action.runOn state = (outcome, later))
    (hdone : ∀ result, outcome = .ok result → done result later)
    (hfailed : ∀ failure, outcome = .error failure → failed failure later) :
    action.Ensures state done failed := by
  rw [Ensures, hrun]
  cases outcome with
  | ok result => exact hdone result rfl
  | error failure => exact hfailed failure rfl

@[simp] theorem ensures_pure (result : α) :
    (pure result : Action σ α).Ensures state done failed ↔ done result state := .rfl

@[simp] theorem ensures_bind (action : Action σ β) (next : β → Action σ α) :
    (action >>= next).Ensures state done failed ↔
      action.Ensures state (fun result later => (next result).Ensures later done failed) failed := by
  unfold Ensures
  rw [runOn_bind]
  rcases action.runOn state with ⟨outcome, later⟩
  cases outcome <;> rfl

@[simp] theorem ensures_map (f : β → α) (action : Action σ β) :
    (f <$> action).Ensures state done failed ↔
      action.Ensures state (fun result later => done (f result) later) failed := by
  rw [← bind_pure_comp]
  exact ensures_bind action fun result => pure (f result)

@[simp] theorem ensures_get {done : σ → σ → Prop} :
    (get : Action σ σ).Ensures state done failed ↔ done state state := .rfl

@[simp] theorem ensures_set {done : PUnit → σ → Prop} (later : σ) :
    (set later : Action σ PUnit).Ensures state done failed ↔ done ⟨⟩ later := .rfl

@[simp] theorem ensures_modify {done : PUnit → σ → Prop} (f : σ → σ) :
    (modify f : Action σ PUnit).Ensures state done failed ↔ done ⟨⟩ (f state) := .rfl

@[simp] theorem ensures_fail (error : DbError) :
    (fail error : Action σ α).Ensures state done failed ↔ failed (.reported error) state := .rfl

@[simp] theorem ensures_crash (fault : Fault) :
    (crash fault : Action σ α).Ensures state done failed ↔ failed (.unforeseen fault) state := .rfl

@[simp] theorem ensures_ofOutcome (outcome : Except Failure α) :
    (ofOutcome outcome : Action σ α).Ensures state done failed ↔
      (∀ result, outcome = .ok result → done result state) ∧
        ∀ failure, outcome = .error failure → failed failure state := by
  cases outcome <;> simp [Ensures]

@[simp] theorem ensures_within (part : σ → τ) (replace : τ → σ → σ) (action : Action τ α) :
    (action.within part replace).Ensures state done failed ↔
      action.Ensures (part state) (fun result later => done result (replace later state))
        fun failure later => failed failure (replace later state) := by
  unfold Ensures
  rw [runOn_within]
  rcases action.runOn (part state) with ⟨outcome, later⟩
  cases outcome <;> rfl

/-! ## Two runs -/

/-- Two actions that are run on two states have the same outcome, and leave related states. -/
structure Agree (related : σ → τ → Prop) (action : Action σ α) (twin : Action τ α) (first : σ)
    (second : τ) : Prop where
  outcome : (action.runOn first).1 = (twin.runOn second).1
  related : related (action.runOn first).2 (twin.runOn second).2

variable {related : σ → τ → Prop} {first : σ} {second : τ}

theorem Agree.mono {action : Action σ α} {twin : Action τ α} {linked : σ → τ → Prop}
    (h : Agree related action twin first second)
    (himp : ∀ later last, related later last → linked later last) :
    Agree linked action twin first second :=
  ⟨h.outcome, himp _ _ h.related⟩

theorem agree_pure (result : α) (h : related first second) :
    Agree related (pure result : Action σ α) (pure result) first second :=
  ⟨rfl, h⟩

theorem agree_ofOutcome (outcome : Except Failure α) (h : related first second) :
    Agree related (ofOutcome outcome : Action σ α) (ofOutcome outcome) first second :=
  ⟨rfl, h⟩

theorem agree_get_bind {next : σ → Action σ α} {follow : τ → Action τ α}
    (h : Agree related (next first) (follow second) first second) :
    Agree related ((get : Action σ σ) >>= next) ((get : Action τ τ) >>= follow) first second :=
  ⟨h.outcome, h.related⟩

theorem Agree.bind {action : Action σ β} {twin : Action τ β} {next : β → Action σ α}
    {follow : β → Action τ α}
    (h : Agree related action twin first second)
    (hnext : ∀ result later last, related later last →
      Agree related (next result) (follow result) later last) :
    Agree related (action >>= next) (twin >>= follow) first second := by
  obtain ⟨houtcome, hrelated⟩ := h
  rcases hfirst : action.runOn first with ⟨outcome, later⟩
  rcases hsecond : twin.runOn second with ⟨other, last⟩
  rw [hfirst, hsecond] at houtcome hrelated
  change outcome = other at houtcome
  subst houtcome
  cases outcome with
  | error failure =>
      constructor <;> rw [runOn_bind, runOn_bind, hfirst, hsecond]
      exact hrelated
  | ok result =>
      have hlast := hnext result later last hrelated
      constructor <;> rw [runOn_bind_of_ok hfirst, runOn_bind_of_ok hsecond]
      · exact hlast.outcome
      · exact hlast.related

theorem agree_bind_of_ensures {action : Action σ β} {twin : Action τ β} {next : β → Action σ α}
    {follow : β → Action τ α} (houtcome : (action.runOn first).1 = (twin.runOn second).1)
    {done : β → σ → Prop} {finished : β → τ → Prop} {failed : Failure → σ → Prop}
    {refused : Failure → τ → Prop}
    (hfirst : action.Ensures first done failed) (hsecond : twin.Ensures second finished refused)
    (hdone : ∀ result later last, done result later → finished result last →
      Agree related (next result) (follow result) later last)
    (hfailed : ∀ failure later last, failed failure later → refused failure last →
      related later last) : Agree related (action >>= next) (twin >>= follow) first second := by
  unfold Ensures at hfirst hsecond
  rcases hrun : action.runOn first with ⟨outcome, later⟩
  rcases hother : twin.runOn second with ⟨other, last⟩
  rw [hrun] at hfirst houtcome
  rw [hother] at hsecond houtcome
  change outcome = other at houtcome
  subst houtcome
  cases outcome with
  | error failure =>
      constructor <;> rw [runOn_bind, runOn_bind, hrun, hother]
      exact hfailed failure later last hfirst hsecond
  | ok result =>
      have hlast := hdone result later last hfirst hsecond
      constructor <;> rw [runOn_bind_of_ok hrun, runOn_bind_of_ok hother]
      · exact hlast.outcome
      · exact hlast.related

theorem agree_of_ensures {action : Action σ α} {twin : Action τ α}
    (houtcome : (action.runOn first).1 = (twin.runOn second).1)
    {done : α → σ → Prop} {finished : α → τ → Prop} {failed : Failure → σ → Prop}
    {refused : Failure → τ → Prop}
    (hfirst : action.Ensures first done failed) (hsecond : twin.Ensures second finished refused)
    (hdone : ∀ result later last, done result later → finished result last → related later last)
    (hfailed : ∀ failure later last, failed failure later → refused failure last →
      related later last) : Agree related action twin first second := by
  have hbind : Agree related (action >>= pure) (twin >>= pure) first second :=
    agree_bind_of_ensures houtcome hfirst hsecond (fun result later last hleft hright =>
      agree_pure result (hdone result later last hleft hright)) hfailed
  rwa [bind_pure, bind_pure] at hbind

end Action

end Relbase
