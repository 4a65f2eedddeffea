import Relbase.Proofs.Text.Ascii

/-!
# Texts in lower case

Taking lower case twice is taking it once: what a character becomes in lower case has no other
lower-case form, and depends on no neighbour.
-/

namespace Relbase.Text

theorem toNat_ofNat_or (code : Nat) :
    (Char.ofNat code).toNat = code ∨ Char.ofNat code = '\x00' := by
  by_cases h : code.isValidChar
  · exact .inl (congrArg Char.toNat (dif_pos h))
  · exact .inr (dif_neg h)

/-! ## Forms of the runs -/

/-- Whether a run has no character between two others, or takes turns with every second one. -/
def CaseRun.isClear (run : CaseRun) (first last : Nat) (turns : Bool) : Bool :=
  Nat.blt last run.first || Nat.blt run.last first ||
    turns && Nat.beq run.stride 2 && Nat.beq ((first + run.first) % 2) 1

theorem isClear_lowerRuns :
    (lowerRuns.all fun run =>
      lowerRuns.all (·.isClear (run.first + run.shift).toNat (run.last + run.shift).toNat
        (Nat.beq run.stride 2 || Nat.beq run.first run.last))) = true := by
  decide +kernel

theorem ends_lowerForms : ∀ run ∈ lowerRuns, 0 ≤ run.first + run.shift ∧
    (run.last + run.shift < 'İ'.toNat ∨ 'İ'.toNat < run.first + run.shift) := by
  decide +kernel

theorem exists_covers_sigma : ∃ run ∈ lowerRuns, run.covers 'Σ'.toNat = true := by
  decide +kernel

theorem not_covers_form {run other : CaseRun} (hrun : run ∈ lowerRuns) (hother : other ∈ lowerRuns)
    {code : Nat} (hcovers : run.covers code = true) :
    other.covers (code + run.shift).toNat = false := by
  have hclear := List.all_eq_true.1 (List.all_eq_true.1 isClear_lowerRuns run hrun) other hother
  have hends := (ends_lowerForms run hrun).1
  rw [Bool.eq_false_iff]
  intro hcovered
  simp only [CaseRun.isClear, CaseRun.covers, Bool.and_eq_true, Bool.or_eq_true, decide_eq_true_eq,
    beq_iff_eq, Nat.blt_eq, Nat.beq_eq] at hclear hcovers hcovered
  -- A form inside another run stands at one of the places that the run leaves out.
  rcases hclear with (hbelow | habove) | ⟨⟨hstride | hsingle, hother⟩, hturns⟩
  · omega
  · omega
  · rw [hother] at hcovered
    rw [hstride] at hcovers
    omega
  · rw [hother] at hcovered
    omega

/-! ## Characters -/

def IsLowered (c : Char) : Prop :=
  c ≠ 'Σ' ∧ c ≠ 'İ' ∧ lowerChar c = c

instance (c : Char) : Decidable (IsLowered c) :=
  inferInstanceAs (Decidable (_ ∧ _ ∧ _))

theorem isLowered_of_uncovered {c : Char} (hdotted : c ≠ 'İ')
    (h : ∀ run ∈ lowerRuns, run.covers c.toNat = false) : IsLowered c := by
  refine ⟨?_, hdotted, ?_⟩
  · rintro rfl
    obtain ⟨run, hrun, hcovers⟩ := exists_covers_sigma
    exact absurd hcovers (Bool.eq_false_iff.1 (h run hrun))
  · rw [lowerChar]
    split
    · refine dif_neg fun hletter => ?_
      have hcapitals := h ⟨0x41, 0x5A, 1, 32⟩ List.mem_cons_self
      have hfirst : 65 ≤ c.toNat := UInt32.le_iff_toNat_le.1 hletter.1
      have hlast : c.toNat ≤ 90 := UInt32.le_iff_toNat_le.1 hletter.2
      simp [CaseRun.covers, Nat.mod_one, hfirst, hlast] at hcapitals
    · rw [List.find?_eq_none.2 fun run hrun => Bool.eq_false_iff.1 (h run hrun)]

theorem isLowered_lowerChar {c : Char} (hsigma : c ≠ 'Σ') (hdotted : c ≠ 'İ') :
    IsLowered (lowerChar c) := by
  by_cases hcode : c.toNat < 128
  · exact of_ascii (P := fun c => IsLowered (lowerChar c)) (by decide +kernel) hcode
  cases hfind : lowerRuns.find? (·.covers c.toNat) with
  | none =>
      have hself : lowerChar c = c := by rw [lowerChar, if_neg hcode, hfind]
      exact hself.symm ▸ ⟨hsigma, hdotted, hself⟩
  | some run =>
      have hmem := List.mem_of_find?_eq_some hfind
      have hcovers := List.find?_some hfind
      have hform : lowerChar c = Char.ofNat (c.toNat + run.shift).toNat := by
        rw [lowerChar, if_neg hcode, hfind]
      rw [hform]
      rcases toNat_ofNat_or (c.toNat + run.shift).toNat with hvalid | hnull
      · refine isLowered_of_uncovered (fun heq => ?_) fun other hother => ?_
        · rw [heq] at hvalid
          simp only [CaseRun.covers, Bool.and_eq_true, decide_eq_true_eq] at hcovers
          have hends := ends_lowerForms run hmem
          omega
        · rw [hvalid]
          exact not_covers_form hmem hother hcovers
      · rw [hnull]
        decide +kernel

/-! ## Texts -/

theorem isLowered_of_mem_lowerFrom {text : Text} {afterCased : Bool} :
    ∀ c ∈ lowerFrom afterCased text, IsLowered c := by
  have hspecial : IsLowered 'ς' ∧ IsLowered 'σ' ∧ IsLowered 'i' ∧ IsLowered '\u0307' := by
    decide +kernel
  induction text generalizing afterCased with
  | nil => exact fun c hc => absurd hc List.not_mem_nil
  | cons c rest ih =>
      rw [lowerFrom]
      refine List.forall_mem_append.2 ⟨?_, ih⟩
      split
      · split <;> simp [hspecial]
      · rename_i hsigma
        split
        · simp [hspecial]
        · rename_i hdotted
          simpa using isLowered_lowerChar hsigma hdotted

theorem lowerFrom_eq_self {text : Text} (h : ∀ c ∈ text, IsLowered c) (afterCased : Bool) :
    lowerFrom afterCased text = text := by
  induction text generalizing afterCased with
  | nil => rfl
  | cons c rest ih =>
      obtain ⟨⟨hsigma, hdotted, hself⟩, hrest⟩ := List.forall_mem_cons.1 h
      rw [lowerFrom, if_neg hsigma, if_neg hdotted, hself, ih hrest]
      rfl

theorem lower_lower (text : Text) : text.lower.lower = text.lower :=
  lowerFrom_eq_self isLowered_of_mem_lowerFrom false

end Relbase.Text
