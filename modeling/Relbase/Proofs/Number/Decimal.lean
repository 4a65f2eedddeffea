import Relbase.Proofs.Text.Ascii

/-!
# Decimal texts of integers

The decimal text of an integer is a sign and ASCII digits, and what is read back from it is
the integer, unless it has too many digits.
-/

namespace Relbase.Text

/-! ## Digits -/

theorem digitValue?_of_isDigit {c : Char} (h : c.isDigit = true) :
    digitValue? c = some (c.toNat - 48) := by
  simp only [Char.isDigit, Bool.and_eq_true, decide_eq_true_eq, ge_iff_le,
    UInt32.le_iff_toNat_le] at h
  have hcode : c.toNat = c.val.toNat := rfl
  have hzero : '0'.val.toNat = 48 := rfl
  have hnine : '9'.val.toNat = 57 := rfl
  have hlow : c.toNat < 128 := by omega
  have hrange : (decide (48 ≤ c.toNat) && decide (c.toNat ≤ 57)) = true := by
    simp only [Bool.and_eq_true, decide_eq_true_eq]
    omega
  simp [digitValue?, hlow, hrange]

theorem isDigit_of_isDigit {c : Char} (h : c.isDigit = true) : isDigit c = true := by
  simp [isDigit, digitValue?_of_isDigit h]

theorem isDigit_of_mem_toDigits {n : Nat} {c : Char} (h : c ∈ Nat.toDigits 10 n) :
    c.isDigit = true :=
  Nat.isDigit_of_mem_toDigits (by omega) (by omega) h

theorem foldl_digits {digits : Text} (h : ∀ c ∈ digits, c.isDigit = true) (start : Nat) :
    digits.foldl (fun value c => 10 * value + (digitValue? c).getD 0) start =
      Nat.ofDigitChars 10 digits start := by
  induction digits generalizing start with
  | nil => rfl
  | cons c digits ih =>
      rw [List.foldl_cons, ih fun d hd => h d (List.mem_cons_of_mem _ hd),
        digitValue?_of_isDigit (h c List.mem_cons_self), Nat.ofDigitChars_cons]
      rfl

theorem digitsValue_toDigits (n : Nat) : digitsValue (Nat.toDigits 10 n) = n := by
  rw [digitsValue, foldl_digits fun c => isDigit_of_mem_toDigits, Nat.ofDigitChars_ten_toDigits]

theorem ofInt_eq (i : Int) :
    ofInt i = (if i < 0 then ['-'] else []) ++ Nat.toDigits 10 i.natAbs := by
  cases i with
  | ofNat n =>
      have htext : ofInt (Int.ofNat n) = n.repr.toList := rfl
      rw [htext, Nat.toList_repr, if_neg (by simp)]
      rfl
  | negSucc n =>
      have htext : ofInt (Int.negSucc n) = ("-" ++ (n + 1).repr).toList := rfl
      rw [htext, String.toList_append, Nat.toList_repr, if_pos (Int.negSucc_lt_zero n)]
      rfl

theorem length_toDigits_le {n limit : Nat} (hlimit : 0 < limit) (h : n < Nat.pow 10 limit) :
    (Nat.toDigits 10 n).length ≤ limit :=
  (Nat.length_toDigits_le_iff (by omega) hlimit).2 h

/-- The least number that has too many digits: a one and `digitLimit` zeros. -/
def digitBound : Nat :=
  Nat.pow 10 digitLimit

theorem isOversized_iff {i : Int} : isOversized i = true ↔ digitBound ≤ i.natAbs := by
  delta digitBound
  simp only [isOversized, decide_eq_true_iff]

theorem ten_le_digitBound : 10 ≤ digitBound := by
  have hpower (n : Nat) (hn : n ≠ 0) : 10 ≤ Nat.pow 10 n := Nat.le_self_pow hn 10
  delta digitBound
  exact hpower _ (by decide)

theorem length_toDigits_of_isOversized {i : Int} (h : isOversized i = false) :
    (Nat.toDigits 10 i.natAbs).length ≤ digitLimit := by
  refine length_toDigits_le (by decide) ?_
  simpa only [isOversized, decide_eq_false_iff_not, Nat.not_le] using h

/-! ## Reading back -/

theorem groupedDigits?_eq_some {digits : Text} (hne : digits ≠ [])
    (h : ∀ c ∈ digits, c.isDigit = true) : groupedDigits? digits = some digits := by
  induction digits with
  | nil => exact absurd rfl hne
  | cons c rest ih =>
      have hc := isDigit_of_isDigit (h c List.mem_cons_self)
      cases rest with
      | nil => simp [groupedDigits?, hc]
      | cons d rest =>
          have hd : d ≠ '_' := by
            rintro rfl
            exact absurd (h '_' (by simp)) (by decide)
          have hlater := ih (by simp) fun e he => h e (List.mem_cons_of_mem _ he)
          rw [groupedDigits?, if_pos hc, hlater]
          · rfl
          · exact nofun
          · rintro later hnext
            cases hnext
            exact hd rfl

theorem splitSign_ofInt (i : Int) :
    Numeral.splitSign (ofInt i) = (decide (i < 0), Nat.toDigits 10 i.natAbs) := by
  rw [ofInt_eq]
  by_cases hi : i < 0
  · simp [hi, Numeral.splitSign]
  · cases hdigits : Nat.toDigits 10 i.natAbs with
    | nil => exact absurd hdigits Nat.toDigits_ne_nil
    | cons c rest =>
        have hc : c.isDigit = true := isDigit_of_mem_toDigits (hdigits ▸ List.mem_cons_self)
        have hplus : c ≠ '+' := by
          rintro rfl
          exact absurd hc (by decide)
        have hminus : c ≠ '-' := by
          rintro rfl
          exact absurd hc (by decide)
        simp [hi, Numeral.splitSign, hplus, hminus]

theorem isPadding_of_isDigit {c : Char} (h : c.isDigit = true) : isPadding c = false := by
  have halphanum : c.isAlphanum = true := by simp [Char.isAlphanum, h]
  simp [isPadding, isBlank_of_isAlphanum halphanum]

theorem dropWhile_isPadding_ofInt (i : Int) : (ofInt i).dropWhile isPadding = ofInt i := by
  rw [ofInt_eq]
  by_cases hi : i < 0
  · rw [if_pos hi]
    exact List.dropWhile_cons_of_neg (by decide)
  · cases hdigits : Nat.toDigits 10 i.natAbs with
    | nil => exact absurd hdigits Nat.toDigits_ne_nil
    | cons c rest =>
        have hc := isPadding_of_isDigit (isDigit_of_mem_toDigits (hdigits ▸ List.mem_cons_self))
        rw [if_neg hi]
        exact List.dropWhile_cons_of_neg (by simp [hc])

theorem readInteger_ofInt {i : Int} (h : isOversized i = false) :
    readInteger (ofInt i) = .ok i := by
  have hdigits : ∀ c ∈ Nat.toDigits 10 i.natAbs, c.isDigit = true :=
    fun c hc => isDigit_of_mem_toDigits hc
  have hgroups : ∀ c ∈ Nat.toDigits 10 i.natAbs, (isDigit c || decide (c = '_')) = true :=
    fun c hc => by simp [isDigit_of_isDigit (hdigits c hc)]
  have htake : (Nat.toDigits 10 i.natAbs).takeWhile (fun c => isDigit c || decide (c = '_')) =
      Nat.toDigits 10 i.natAbs := by
    simpa using @List.takeWhile_append_of_pos _ _ _ [] hgroups
  have hdrop : (Nat.toDigits 10 i.natAbs).dropWhile (fun c => isDigit c || decide (c = '_')) =
      [] := by
    simpa using @List.dropWhile_append_of_pos _ _ _ [] hgroups
  rw [readInteger, dropWhile_isPadding_ofInt, splitSign_ofInt]
  simp only [htake, hdrop, groupedDigits?_eq_some Nat.toDigits_ne_nil hdigits,
    Nat.not_lt.2 (length_toDigits_of_isOversized h), digitsValue_toDigits, if_false, List.all_nil,
    if_true, decide_eq_true_eq, Except.ok.injEq]
  split <;> omega

end Relbase.Text
