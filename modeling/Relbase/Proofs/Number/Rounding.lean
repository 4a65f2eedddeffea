import Mathlib.Order.Monotone.Basic
import Mathlib.Tactic.Ring
import Relbase.Proofs.Number.Decimal
import Relbase.Proofs.Number.Grammar

/-!
# Integers as doubles

The double that is nearest to an integer keeps its 53 leading bits.  Two integers have one
double exactly if they are the same after rounding.  The integers below 2 ^ 53 have it for
themselves, and so has every other even one up to 2 ^ 54; all further ones share it.
-/

namespace Relbase

/-! ## Nearest quotients -/

theorem nearestQuotient_mul_right {scale : Nat} (h : 0 < scale) (numerator denominator : Nat) :
    nearestQuotient (numerator * scale) (denominator * scale) =
      nearestQuotient numerator denominator := by
  simp only [nearestQuotient, Nat.mul_div_mul_right _ _ h, Nat.mul_mod_mul_right,
    ← Nat.mul_assoc, Nat.mul_lt_mul_right h, gt_iff_lt]

theorem nearestQuotient_mul_add {remainder denominator : Nat} (h : 2 * remainder < denominator)
    (quotient : Nat) :
    nearestQuotient (quotient * denominator + remainder) denominator = quotient := by
  have hlt : remainder < denominator := by omega
  have hdiv : (quotient * denominator + remainder) / denominator = quotient := by
    rw [Nat.mul_comm, Nat.mul_add_div (by omega), Nat.div_eq_of_lt hlt, Nat.add_zero]
  have hmod : (quotient * denominator + remainder) % denominator = remainder := by
    rw [Nat.mul_comm, Nat.mul_add_mod, Nat.mod_eq_of_lt hlt]
  simp only [nearestQuotient, hdiv, hmod, if_pos h]

theorem nearestQuotient_mul_self {denominator : Nat} (h : 0 < denominator) (quotient : Nat) :
    nearestQuotient (quotient * denominator) denominator = quotient :=
  nearestQuotient_mul_add (by omega : 2 * 0 < denominator) quotient

theorem nearestQuotient_bounds (numerator denominator : Nat) :
    numerator / denominator ≤ nearestQuotient numerator denominator ∧
      nearestQuotient numerator denominator ≤ numerator / denominator + 1 := by
  simp only [nearestQuotient]
  split_ifs <;> omega

namespace Binary64

/-! ## Magnitudes and the numbers that they are -/

def units (magnitude : Nat) : Nat :=
  (factors magnitude).1 * 2 ^ ((factors magnitude).2 + 1074).toNat

theorem units_of_lt {magnitude : Nat} (h : magnitude < 2 ^ 52) : units magnitude = magnitude := by
  simp [units, factors, Nat.pow_eq, Nat.div_eq_of_lt h, Nat.mod_eq_of_lt h, -Nat.reducePow]

theorem units_normal (field : Nat) {fraction : Nat} (h : fraction < 2 ^ 52) :
    units ((field + 1) * 2 ^ 52 + fraction) = (2 ^ 52 + fraction) * 2 ^ field := by
  have hdiv : ((field + 1) * 2 ^ 52 + fraction) / 2 ^ 52 = field + 1 := by omega
  have hmod : ((field + 1) * 2 ^ 52 + fraction) % 2 ^ 52 = fraction := by omega
  have hpower : (((field + 1 : Nat) : Int) - 1075 + 1074).toNat = field := by omega
  simp only [units, factors, Nat.pow_eq, hdiv, hmod, Nat.add_one_ne_zero, if_false, hpower]

theorem units_add (power : Nat) {significand : Nat} (hlow : 2 ^ 52 ≤ significand)
    (hhigh : significand ≤ 2 ^ 53) :
    units (power * 2 ^ 52 + significand) = significand * 2 ^ power := by
  rcases Nat.lt_or_eq_of_le hhigh with hlt | rfl
  · have hsplit : power * 2 ^ 52 + significand =
        (power + 1) * 2 ^ 52 + (significand - 2 ^ 52) := by omega
    rw [hsplit, units_normal power (by omega), Nat.add_sub_cancel' hlow]
  · have hsplit : power * 2 ^ 52 + 2 ^ 53 = (power + 1 + 1) * 2 ^ 52 + 0 := by omega
    rw [hsplit, units_normal (power + 1) (by omega)]
    ring

theorem units_strictMono : StrictMono units := by
  refine strictMono_nat_of_lt_succ fun magnitude => ?_
  by_cases h : magnitude < 2 ^ 52
  · rw [units_of_lt h]
    by_cases hnext : magnitude + 1 < 2 ^ 52
    · rw [units_of_lt hnext]
      omega
    · have hmin : magnitude + 1 = 0 * 2 ^ 52 + 2 ^ 52 := by omega
      rw [hmin, units_add 0 (by omega) (by omega)]
      omega
  · obtain ⟨power, significand, hlow, hhigh, rfl⟩ : ∃ power significand,
        2 ^ 52 ≤ significand ∧ significand < 2 ^ 53 ∧ magnitude = power * 2 ^ 52 + significand :=
      ⟨magnitude / 2 ^ 52 - 1, 2 ^ 52 + magnitude % 2 ^ 52, by omega, by omega, by omega⟩
    rw [Nat.add_assoc, units_add power hlow (by omega), units_add power (by omega) (by omega)]
    exact Nat.mul_lt_mul_of_pos_right (Nat.lt_succ_self _) (Nat.two_pow_pos power)

/-! ## Leading bits -/

def leadingBits (n : Nat) : Nat :=
  nearestQuotient (n * 2 ^ 52) (2 ^ n.log2)

theorem leadingBits_bounds {n : Nat} (hn : n ≠ 0) :
    2 ^ 52 ≤ leadingBits n ∧ leadingBits n ≤ 2 ^ 53 := by
  have hbounds := nearestQuotient_bounds (n * 2 ^ 52) (2 ^ n.log2)
  have hlow : 2 ^ 52 ≤ n * 2 ^ 52 / 2 ^ n.log2 := by
    rw [Nat.le_div_iff_mul_le (Nat.two_pow_pos _), Nat.mul_comm]
    exact Nat.mul_le_mul_right _ (Nat.log2_self_le hn)
  have hhigh : n * 2 ^ 52 / 2 ^ n.log2 < 2 ^ 53 := by
    rw [Nat.div_lt_iff_lt_mul (Nat.two_pow_pos _)]
    have hlt := @Nat.lt_log2_self n
    rw [Nat.pow_succ] at hlt
    omega
  exact ⟨hlow.trans hbounds.1, hbounds.2.trans hhigh⟩

theorem unitPower_whole {n : Nat} (hn : n ≠ 0) : unitPower n 1 = (n.log2 : Int) - 52 := by
  have hlow := Nat.log2_self_le hn
  have hone : Nat.log2 1 = 0 := by decide
  have hfull : ¬ (divideByPower n 1 (n.log2 - 53)).1 <
      2 ^ 53 * (divideByPower n 1 (n.log2 - 53)).2 := by
    rw [divideByPower]
    split
    · have hpower : 2 ^ 53 * 2 ^ ((n.log2 : Int) - 53).toNat = 2 ^ n.log2 := by
        rw [← Nat.pow_add]
        congr 1
        omega
      simp only [Nat.pow_eq, Nat.one_mul, hpower]
      omega
    · have hpower : 2 ^ 53 = 2 ^ n.log2 * 2 ^ (-((n.log2 : Int) - 53)).toNat := by
        rw [← Nat.pow_add]
        congr 1
        omega
      simp only [Nat.pow_eq, Nat.mul_one, hpower, Nat.not_lt]
      exact Nat.mul_le_mul_right _ hlow
  simp only [unitPower, hone, Int.natCast_zero, Int.sub_zero, Nat.pow_eq, if_neg hfull]
  omega

theorem nearestQuotient_divideByPower (n : Nat) :
    nearestQuotient (divideByPower n 1 (n.log2 - 52)).1 (divideByPower n 1 (n.log2 - 52)).2 =
      leadingBits n := by
  rw [divideByPower, leadingBits]
  split
  · have hpower : 2 ^ ((n.log2 : Int) - 52).toNat * 2 ^ 52 = 2 ^ n.log2 := by
      rw [← Nat.pow_add]
      congr 1
      omega
    rw [← hpower, nearestQuotient_mul_right (Nat.two_pow_pos 52), Nat.one_mul, Nat.pow_eq]
  · have hpower : 2 ^ (-((n.log2 : Int) - 52)).toNat * 2 ^ n.log2 = 2 ^ 52 := by
      rw [← Nat.pow_add]
      congr 1
      omega
    rw [← nearestQuotient_mul_right (Nat.two_pow_pos n.log2), Nat.one_mul, Nat.pow_eq,
      Nat.mul_assoc, hpower]

theorem nearestMagnitude_whole {n : Nat} (hn : n ≠ 0) :
    nearestMagnitude n 1 =
      min ((n.log2 + 1022) * 2 ^ 52 + leadingBits n) infinityMagnitude := by
  have hfield : ((n.log2 : Int) - 52 + 1074).toNat = n.log2 + 1022 := by omega
  simp only [nearestMagnitude, if_neg hn, unitPower_whole hn, nearestQuotient_divideByPower,
    hfield, Nat.pow_eq]

theorem le_log2_of_ten_pow_le {n count : Nat} (hn : n ≠ 0) (h : 10 ^ (62 * count) ≤ n) :
    205 * count ≤ n.log2 := by
  rw [Nat.le_log2 hn]
  calc
    2 ^ (205 * count) = (2 ^ 205) ^ count := Nat.pow_mul 2 205 count
    _ ≤ (10 ^ 62) ^ count := Nat.pow_le_pow_left (by decide) count
    _ = 10 ^ (62 * count) := (Nat.pow_mul 10 62 count).symm
    _ ≤ n := h

theorem decimalMagnitude_whole {n : Nat} (hn : n ≠ 0) :
    decimalMagnitude n 0 =
      min ((n.log2 + 1022) * 2 ^ 52 + leadingBits n) infinityMagnitude := by
  have hreach : ¬ (0 : Int) + (Nat.toDigits 10 n).length < -330 := by omega
  simp only [decimalMagnitude, hn, hreach, decide_false, Bool.or_self, Bool.false_eq_true,
    if_false, Int.le_refl, if_true]
  split
  · rename_i hlong
    have hlarge : 205 * 5 ≤ n.log2 := by
      refine le_log2_of_ten_pow_le hn (Nat.not_lt.1 fun hshort => ?_)
      have hlength := (Nat.length_toDigits_le_iff (by omega) (by omega)).2 hshort
      clear hshort
      omega
    have hlow := (leadingBits_bounds hn).1
    rw [infinityMagnitude, Nat.pow_eq]
    omega
  · rw [Int.toNat_zero, Nat.pow_eq, Nat.pow_zero, Nat.mul_one, nearestMagnitude_whole hn]

/-! ## Rounding -/

/-- A natural number rounded to 53 significant bits, a half to the even neighbour. -/
def roundWhole (n : Nat) : Nat :=
  let unit := 2 ^ (n.log2 - 52)
  nearestQuotient n unit * unit

def overflow : Nat :=
  2 ^ 1024

/-- The integer that the double nearest to an integer is. -/
def nearestInt (n : Int) : Int :=
  n.sign * min (roundWhole n.natAbs) overflow

theorem roundWhole_mul (n : Nat) : roundWhole n * 2 ^ 52 = leadingBits n * 2 ^ n.log2 := by
  rw [roundWhole, leadingBits]
  rcases Nat.le_total 52 n.log2 with h | h
  · have hpower : 2 ^ (n.log2 - 52) * 2 ^ 52 = 2 ^ n.log2 := by
      rw [← Nat.pow_add, Nat.sub_add_cancel h]
    rw [← hpower, nearestQuotient_mul_right (Nat.two_pow_pos 52), Nat.mul_assoc]
  · have hpower : 2 ^ 52 = 2 ^ (52 - n.log2) * 2 ^ n.log2 := by
      rw [← Nat.pow_add, Nat.sub_add_cancel h]
    have hunit : n.log2 - 52 = 0 := by omega
    have hwhole (quotient : Nat) : nearestQuotient quotient 1 = quotient := by
      simpa using nearestQuotient_mul_self Nat.one_pos quotient
    rw [hpower, ← Nat.mul_assoc n, nearestQuotient_mul_self (Nat.two_pow_pos _), hunit,
      Nat.pow_zero, hwhole, Nat.mul_one, Nat.mul_assoc]

theorem leadingBits_mul (n : Nat) {a b : Nat} (h : 52 + a = b) :
    leadingBits n * 2 ^ (n.log2 + a) = roundWhole n * 2 ^ b := by
  rw [← h, Nat.pow_add, Nat.pow_add, ← Nat.mul_assoc, ← roundWhole_mul, Nat.mul_assoc]

theorem two_pow_mul_two_pow {a b c d : Nat} (h : a + b = c + d) : 2 ^ a * 2 ^ b = 2 ^ c * 2 ^ d := by
  rw [← Nat.pow_add, h, Nat.pow_add]

theorem units_decimalMagnitude (n : Nat) :
    units (decimalMagnitude n 0) = min (roundWhole n) overflow * 2 ^ 1074 := by
  by_cases hn : n = 0
  · subst hn
    have hzero : roundWhole 0 = 0 := rfl
    rw [hzero, Nat.zero_min, Nat.zero_mul]
    rfl
  obtain ⟨hlow, hhigh⟩ := leadingBits_bounds hn
  have hinfinity : units infinityMagnitude = overflow * 2 ^ 1074 := by
    have hsplit : infinityMagnitude = 2046 * 2 ^ 52 + 2 ^ 52 := by decide
    rw [hsplit, units_add _ (Nat.le_refl _) (by omega), overflow]
    exact two_pow_mul_two_pow rfl
  rw [decimalMagnitude_whole hn, units_strictMono.monotone.map_min, units_add _ hlow hhigh,
    hinfinity, leadingBits_mul n rfl, Nat.mul_min_mul_right]

theorem decimalMagnitude_eq_iff {m n : Nat} :
    decimalMagnitude m 0 = decimalMagnitude n 0 ↔
      min (roundWhole m) overflow = min (roundWhole n) overflow := by
  rw [← units_strictMono.injective.eq_iff, units_decimalMagnitude, units_decimalMagnitude,
    Nat.mul_left_inj (Nat.two_pow_pos 1074).ne']

/-! ## What is rounded -/

theorem le_roundWhole {n : Nat} (hn : n ≠ 0) : 2 ^ n.log2 ≤ roundWhole n := by
  have hlow := Nat.mul_le_mul_right (2 ^ n.log2) (leadingBits_bounds hn).1
  rw [← roundWhole_mul, Nat.mul_comm] at hlow
  exact Nat.le_of_mul_le_mul_right hlow (Nat.two_pow_pos 52)

theorem roundWhole_eq_zero_iff {n : Nat} : roundWhole n = 0 ↔ n = 0 := by
  refine ⟨fun h => by_contra fun hn => ?_, by rintro rfl; rfl⟩
  have hle := le_roundWhole hn
  have hpos := Nat.two_pow_pos n.log2
  omega

theorem roundWhole_of_dvd {n : Nat} (h : 2 ^ (n.log2 - 52) ∣ n) : roundWhole n = n := by
  obtain ⟨quotient, hquotient⟩ := h
  rw [Nat.mul_comm] at hquotient
  have hround := nearestQuotient_mul_self (Nat.two_pow_pos (n.log2 - 52)) quotient
  rw [← hquotient] at hround
  rw [roundWhole, hround, ← hquotient]

theorem roundWhole_mul_two_pow {significand : Nat} (h : significand ≤ 2 ^ 53) (power : Nat) :
    roundWhole (significand * 2 ^ power) = significand * 2 ^ power := by
  refine roundWhole_of_dvd ?_
  rcases Nat.lt_or_eq_of_le h with hlt | rfl
  · by_cases hzero : significand * 2 ^ power = 0
    · rw [hzero]
      exact Nat.dvd_zero _
    have hlog : (significand * 2 ^ power).log2 < 53 + power := by
      rw [Nat.log2_lt hzero, Nat.pow_add]
      exact Nat.mul_lt_mul_of_pos_right hlt (Nat.two_pow_pos power)
    exact Nat.dvd_mul_left_of_dvd (Nat.pow_dvd_pow 2 (by omega)) _
  · rw [← Nat.pow_add, Nat.log2_two_pow]
    exact Nat.pow_dvd_pow 2 (by omega)

theorem roundWhole_of_lt {n : Nat} (h : n < 2 ^ 53) : roundWhole n = n := by
  simpa using roundWhole_mul_two_pow (Nat.le_of_lt h) 0

theorem roundWhole_roundWhole (n : Nat) : roundWhole (roundWhole n) = roundWhole n := by
  have hquotient : n / 2 ^ (n.log2 - 52) < 2 ^ 53 := by
    rw [Nat.div_lt_iff_lt_mul (Nat.two_pow_pos _), ← Nat.pow_add]
    exact Nat.lt_of_lt_of_le Nat.lt_log2_self (Nat.pow_le_pow_right (by decide) (by omega))
  have hbounds := nearestQuotient_bounds n (2 ^ (n.log2 - 52))
  exact roundWhole_mul_two_pow (by omega) _

theorem roundWhole_of_le_of_lt {n : Nat} (hlow : 2 ^ 53 ≤ n) (hhigh : n < 2 ^ 54) :
    roundWhole n = nearestQuotient n 2 * 2 := by
  have hlog : n.log2 = 53 := (Nat.log2_eq_iff (by omega)).2 ⟨hlow, hhigh⟩
  rw [roundWhole, hlog]
  rfl

theorem two_pow_le_roundWhole {n power : Nat} (h : 2 ^ power ≤ n) : 2 ^ power ≤ roundWhole n := by
  have hn : n ≠ 0 := fun hzero => by simp [hzero] at h
  exact (Nat.pow_le_pow_right (by decide) ((Nat.le_log2 hn).2 h)).trans (le_roundWhole hn)

/-- No other natural number has the double of this one. -/
def IsSeparate (n : Nat) : Prop :=
  n < 2 ^ 53 ∨ n < 2 ^ 54 ∧ n % 4 = 2

theorem IsSeparate.roundWhole_eq {n : Nat} (h : IsSeparate n) : roundWhole n = n := by
  by_cases hlow : n < 2 ^ 53
  · exact roundWhole_of_lt hlow
  · obtain ⟨hhigh, hmod⟩ := h.resolve_left hlow
    rw [roundWhole_of_le_of_lt (by omega) hhigh, nearestQuotient]
    split_ifs <;> omega

theorem IsSeparate.eq_of_roundWhole_eq {n : Nat} (h : IsSeparate n) {other : Nat}
    (heq : roundWhole other = n) : other = n := by
  by_cases hlow : other < 2 ^ 53
  · rw [roundWhole_of_lt hlow] at heq
    exact heq
  have hother := two_pow_le_roundWhole (Nat.not_lt.1 hlow)
  have hn : ¬ n < 2 ^ 53 := by omega
  obtain ⟨hhigh, hmod⟩ := h.resolve_left hn
  by_cases hbits : other < 2 ^ 54
  · rw [roundWhole_of_le_of_lt (by omega) hbits, nearestQuotient] at heq
    split_ifs at heq <;> omega
  · have hlarge := two_pow_le_roundWhole (Nat.not_lt.1 hbits)
    omega

theorem log2_succ {n : Nat} (hn : n ≠ 0) (heven : 2 ∣ n) : (n + 1).log2 = n.log2 := by
  have hlow := Nat.log2_self_le hn
  have hhigh := @Nat.lt_log2_self n
  refine (Nat.log2_eq_iff (by omega)).2 ⟨by omega, ?_⟩
  rw [Nat.pow_succ] at hhigh ⊢
  omega

theorem roundWhole_succ {n : Nat} (h : ¬ IsSeparate n) (hround : roundWhole n = n) :
    roundWhole (n + 1) = n := by
  obtain ⟨hlow, hmod⟩ := not_or.1 h
  have hlog : 53 ≤ n.log2 := (Nat.le_log2 (by omega)).2 (Nat.not_lt.1 hlow)
  have heven : 2 ∣ n := by
    rw [← hround]
    exact Nat.dvd_mul_left_of_dvd (dvd_pow_self 2 (by omega)) _
  by_cases hhigh : n < 2 ^ 54
  · rw [roundWhole_of_le_of_lt (by omega) (by omega), nearestQuotient]
    split_ifs <;> omega
  · have hbits : 54 ≤ n.log2 := (Nat.le_log2 (by omega)).2 (Nat.not_lt.1 hhigh)
    have hunit : 2 ^ 2 ≤ 2 ^ (n.log2 - 52) := Nat.pow_le_pow_right (by decide) (by omega)
    rw [roundWhole] at hround
    rw [roundWhole, log2_succ (by omega) heven]
    nth_rewrite 1 [← hround]
    rw [nearestQuotient_mul_add (by omega), hround]

theorem exists_ne_roundWhole_eq {n : Nat} (h : ¬ IsSeparate n) :
    ∃ other, other ≠ n ∧ roundWhole other = roundWhole n := by
  -- What is not rounded shares its double with a neighbour, and the rest with what it becomes.
  by_cases hround : roundWhole n = n
  · exact ⟨n + 1, by omega, (roundWhole_succ h hround).trans hround.symm⟩
  · exact ⟨roundWhole n, hround, roundWhole_roundWhole n⟩

/-! ## Signs -/

theorem sign_mul_eq_iff {f : Nat → Nat} (hf : ∀ k, f k = 0 ↔ k = 0) {m n : Int} :
    m.sign * f m.natAbs = n.sign * f n.natAbs ↔
      m.sign = n.sign ∧ f m.natAbs = f n.natAbs := by
  have hm := hf m.natAbs
  have hn := hf n.natAbs
  rw [Int.natAbs_eq_zero, ← Int.sign_eq_zero_iff_zero] at hm hn
  generalize f m.natAbs = a at hm ⊢
  generalize f n.natAbs = b at hn ⊢
  rcases Int.sign_trichotomy m with hsign | hsign | hsign <;>
    rcases Int.sign_trichotomy n with hsign' | hsign' | hsign' <;>
      rw [hsign] at hm ⊢ <;> rw [hsign'] at hn ⊢ <;> omega

theorem rank_toBinary64 (n : Int) :
    (Numeral.toBinary64 ⟨decide (n < 0), n.natAbs, 0⟩).rank =
      n.sign * decimalMagnitude n.natAbs 0 := by
  rw [Numeral.toBinary64, rank]
  rcases Int.lt_trichotomy n 0 with h | rfl | h
  · simp [h, Int.sign_eq_neg_one_of_neg h]
  · rfl
  · simp [Int.not_lt.2 (Int.le_of_lt h), Int.sign_eq_one_of_pos h]

theorem overflow_pos : 0 < overflow :=
  pow_pos two_pos _

theorem min_roundWhole_eq_zero_iff (k : Nat) : min (roundWhole k) overflow = 0 ↔ k = 0 := by
  rw [← @roundWhole_eq_zero_iff k]
  have hpos := overflow_pos
  omega

/-- Two integers have the same double exactly if they are the same after rounding. -/
theorem rank_eq_iff {m n : Int} :
    (Numeral.toBinary64 ⟨decide (m < 0), m.natAbs, 0⟩).rank =
        (Numeral.toBinary64 ⟨decide (n < 0), n.natAbs, 0⟩).rank ↔
      nearestInt m = nearestInt n := by
  have hzero (k : Nat) : decimalMagnitude k 0 = 0 ↔ k = 0 := by
    have hsame := @decimalMagnitude_eq_iff k 0
    have hround : min (roundWhole 0) overflow = 0 := (min_roundWhole_eq_zero_iff 0).2 rfl
    rw [hround, min_roundWhole_eq_zero_iff] at hsame
    exact hsame
  rw [rank_toBinary64, rank_toBinary64, sign_mul_eq_iff hzero, decimalMagnitude_eq_iff, nearestInt,
    nearestInt, sign_mul_eq_iff min_roundWhole_eq_zero_iff]

/-! ## Integers with a double of their own -/

theorem nearestInt_eq_iff {m n : Int} :
    nearestInt m = nearestInt n ↔ m.sign = n.sign ∧
      min (roundWhole m.natAbs) overflow = min (roundWhole n.natAbs) overflow :=
  sign_mul_eq_iff min_roundWhole_eq_zero_iff

theorem IsSeparate.lt_overflow {n : Nat} (h : IsSeparate n) : n < overflow := by
  have hhigh : n < 2 ^ 54 := by
    rcases h with hlow | ⟨hhigh, -⟩ <;> omega
  exact hhigh.trans_le (pow_le_pow_right₀ one_le_two (by omega))

theorem IsSeparate.eq_of_nearestInt_eq {m n : Int} (h : IsSeparate n.natAbs)
    (heq : nearestInt m = nearestInt n) : m = n := by
  obtain ⟨hsign, hround⟩ := nearestInt_eq_iff.1 heq
  have hfinite := h.lt_overflow
  rw [h.roundWhole_eq] at hround
  have habs : m.natAbs = n.natAbs := h.eq_of_roundWhole_eq (by omega)
  rw [← Int.sign_mul_natAbs m, hsign, habs, Int.sign_mul_natAbs]

theorem exists_ne_nearestInt_eq {n : Int} (h : ¬ IsSeparate n.natAbs) :
    ∃ other, other ≠ n ∧ nearestInt other = nearestInt n := by
  obtain ⟨other, hne, hround⟩ := exists_ne_roundWhole_eq h
  have hn : n.natAbs ≠ 0 := fun hzero => h (.inl (by omega))
  have hother : other ≠ 0 := by
    rw [ne_eq, ← roundWhole_eq_zero_iff, hround, roundWhole_eq_zero_iff]
    exact hn
  have hsign : (n.sign * other).sign = n.sign := by
    rw [Int.sign_mul, Int.sign_sign, Int.sign_natCast_of_ne_zero hother, Int.mul_one]
  have habs : (n.sign * other).natAbs = other := by
    rw [Int.natAbs_mul, Int.natAbs_sign_of_ne_zero (by omega), Int.natAbs_natCast, Nat.one_mul]
  refine ⟨n.sign * other, fun heq => hne ?_, nearestInt_eq_iff.2 ⟨hsign, by rw [habs, hround]⟩⟩
  rw [← habs, heq]

end Binary64

/-! ## Decimal texts -/

theorem Numeral.read?_ofInt (n : Int) :
    read? (Text.ofInt n) = some ⟨decide (n < 0), n.natAbs, 0⟩ := by
  have hdigits : AreDigits (Nat.toDigits 10 n.natAbs) :=
    fun c hc => Text.isDigit_of_isDigit (Text.isDigit_of_mem_toDigits hc)
  have hsplit := @splitDigits_append _ [] hdigits (by simp)
  rw [List.append_nil] at hsplit
  simp [read?, Text.splitSign_ofInt, hsplit, splitFraction, exponent?, Text.digitsValue_toDigits]

end Relbase
