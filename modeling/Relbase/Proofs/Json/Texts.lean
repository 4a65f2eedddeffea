import Relbase.Json.Parser
import Relbase.Json.Printer
import Relbase.Proofs.Number.Decimal

/-!
# Reading back JSON texts and integers

What is written for a text or an integer is read as that text or integer, whatever
follows it.
-/

namespace Relbase.Json

/-! ## Texts -/

theorem hexDigits_four (n : Nat) :
    Text.hexDigits 4 n =
      [Text.hexDigit (n / 16 / 16 / 16 % 16), Text.hexDigit (n / 16 / 16 % 16),
        Text.hexDigit (n / 16 % 16), Text.hexDigit (n % 16)] := rfl

theorem codeUnit?_hexDigits {n : Nat} (h : n < 32) :
    codeUnit? (Text.hexDigit (n / 16 / 16 / 16 % 16)) (Text.hexDigit (n / 16 / 16 % 16))
      (Text.hexDigit (n / 16 % 16)) (Text.hexDigit (n % 16)) = some n := by
  have hall : ∀ n < 32, codeUnit? (Text.hexDigit (n / 16 / 16 / 16 % 16))
      (Text.hexDigit (n / 16 / 16 % 16)) (Text.hexDigit (n / 16 % 16))
      (Text.hexDigit (n % 16)) = some n := by decide
  exact hall n h

theorem readCodes_escapedChar (opening : Nat) (c : Char) (next : Char) (rest : Text) :
    readCodes opening (escapedChar c ++ next :: rest) =
      withCode c.toNat (readCodes opening (next :: rest)) := by
  unfold escapedChar
  iterate 7
    split
    · subst_vars
      simp [readCodes, escaped?]
  split
  · rename_i hcode
    rw [hexDigits_four]
    simp [readCodes, codeUnit?_hexDigits hcode]
  · rename_i hquote hslash _ _ _ _ _ hcode
    rw [List.singleton_append, readCodes, if_neg hquote, if_neg hcode]
    · exact fun h _ => hslash h
    · exact fun _ _ _ _ _ _ h _ => hslash h
    · exact fun _ h _ => hslash h
    · exact fun _ _ h _ => hslash h

theorem readCodes_escaped (opening : Nat) (text rest : Text) :
    readCodes opening (text.flatMap escapedChar ++ '"' :: rest) =
      .ok (text.map Char.toNat, rest) := by
  induction text with
  | nil => simp [readCodes]
  | cons c text ih =>
      have hnext : ∃ next later, text.flatMap escapedChar ++ '"' :: rest = next :: later := by
        cases hbody : text.flatMap escapedChar with
        | nil => exact ⟨_, _, rfl⟩
        | cons next later => exact ⟨_, _, rfl⟩
      obtain ⟨next, later, hbody⟩ := hnext
      rw [List.flatMap_cons, List.append_assoc, hbody, readCodes_escapedChar, ← hbody, ih]
      rfl

theorem isValidChar_toNat (c : Char) :
    c.toNat < 0xD800 ∨ (0xDFFF < c.toNat ∧ c.toNat < 0x110000) :=
  c.valid

theorem ofCode?_toNat (c : Char) : joinSurrogates.ofCode? c.toNat = some c := by
  have hcode := isValidChar_toNat c
  have hrange : (decide (0xD800 ≤ c.toNat) && decide (c.toNat < 0xE000)) = false := by
    simp only [Bool.and_eq_false_iff, decide_eq_false_iff_not]
    omega
  simp [joinSurrogates.ofCode?, hrange]

theorem joinSurrogates_toNat (text : Text) :
    joinSurrogates (text.map Char.toNat) = some text := by
  induction text with
  | nil => rfl
  | cons c text ih =>
      cases text with
      | nil => simp [joinSurrogates, ofCode?_toNat]
      | cons d text =>
          have hcode := isValidChar_toNat c
          have hpair : (decide (0xD800 ≤ c.toNat) && decide (c.toNat < 0xDC00) &&
              decide (0xDC00 ≤ d.toNat) && decide (d.toNat < 0xE000)) = false := by
            simp only [Bool.and_eq_false_iff, decide_eq_false_iff_not]
            omega
          simp only [List.map_cons] at ih
          simp only [List.map_cons, joinSurrogates, hpair, ofCode?_toNat, ih]
          simp

def ReadsText (text value rest : Text) : Prop :=
  ∃ h, readText text = .ok (value, ⟨rest, h⟩)

theorem readsText_escaped (value rest : Text) :
    ReadsText (value.flatMap escapedChar ++ '"' :: rest) value rest := by
  have hcodes := readCodes_escaped ((value.flatMap escapedChar ++ '"' :: rest).length + 1) value rest
  refine ⟨length_readCodes hcodes, ?_⟩
  unfold readText
  split
  · rename_i stop hstop
    rw [hcodes] at hstop
    cases hstop
  · rename_i codes later hread
    rw [hcodes] at hread
    cases hread
    simp [joinSurrogates_toNat]

/-! ## Integers -/

/-- A rest with which no number goes on. -/
def EndsNumber (rest : Text) : Prop :=
  ∀ c, rest.head? = some c → c.isDigit = false ∧ c ≠ '.' ∧ c ≠ 'e' ∧ c ≠ 'E'

theorem splitDigits_append {digits rest : Text} (hdigits : ∀ c ∈ digits, c.isDigit = true)
    (hrest : EndsNumber rest) : splitDigits (digits ++ rest) = (digits, rest) := by
  have htake : rest.takeWhile Char.isDigit = [] := by
    cases rest with
    | nil => rfl
    | cons c later => simp [(hrest c rfl).1]
  have hdrop : rest.dropWhile Char.isDigit = rest := by
    cases rest with
    | nil => rfl
    | cons c later => simp [(hrest c rfl).1]
  rw [splitDigits, List.takeWhile_append_of_pos hdigits, List.dropWhile_append_of_pos hdigits,
    htake, hdrop, List.append_nil]

theorem splitFraction_of_ends {rest : Text} (h : EndsNumber rest) :
    splitFraction rest = ([], rest) := by
  unfold splitFraction
  split
  · exact absurd rfl (h _ rfl).2.1
  · rfl

theorem splitExponent_of_ends {rest : Text} (h : EndsNumber rest) :
    splitExponent rest = ([], rest) := by
  cases rest with
  | nil => rfl
  | cons c later => simp [splitExponent, h c rfl]

theorem toDigits_eq_zero_cons {n : Nat} {rest : Text} (h : Nat.toDigits 10 n = '0' :: rest) :
    rest = [] := by
  induction n using Nat.strongRecOn generalizing rest with
  | _ n ih =>
      by_cases hn : n < 10
      · rw [Nat.toDigits_of_lt_base hn, List.cons.injEq] at h
        exact h.2.symm
      · rw [Nat.toDigits_of_base_le (by omega) (by omega)] at h
        cases hfront : Nat.toDigits 10 (n / 10) with
        | nil => exact absurd hfront Nat.toDigits_ne_nil
        | cons c later =>
            rw [hfront, List.cons_append, List.cons.injEq] at h
            rw [h.1] at hfront
            have hlater := ih (n / 10) (by omega) hfront
            have hvalue := Text.digitsValue_toDigits (n / 10)
            rw [hfront, hlater] at hvalue
            have hzero : Text.digitsValue ['0'] = 0 := by decide
            omega

theorem readNumber_ofInt {i : Int} (h : Text.isOversized i = false) {rest : Text}
    (hrest : EndsNumber rest) :
    readNumber (Text.ofInt i ++ rest) = .ok (.integer i, (Text.ofInt i).length) := by
  have hdigits : ∀ c ∈ Nat.toDigits 10 i.natAbs, c.isDigit = true :=
    fun c hc => Text.isDigit_of_mem_toDigits hc
  have hshort := Nat.not_lt.2 (Text.length_toDigits_of_isOversized h)
  have hvalue := Text.digitsValue_toDigits i.natAbs
  have hsplit := splitDigits_append hdigits hrest
  rw [Text.ofInt_eq]
  cases hfound : Nat.toDigits 10 i.natAbs with
  | nil => exact absurd hfound Nat.toDigits_ne_nil
  | cons first more =>
      have hmore : first = '0' → more = [] := by
        rintro rfl
        exact toDigits_eq_zero_cons hfound
      have hwhole : (if first = '0' then [first] else first :: more) = first :: more := by
        split
        · rename_i hzero
          rw [hmore hzero]
        · rfl
      have hafter : (if first = '0' then more ++ rest else rest) = rest := by
        split
        · rename_i hzero
          rw [hmore hzero]
          rfl
        · rfl
      rw [hfound] at hshort hvalue hsplit hdigits
      by_cases hi : i < 0
      · rw [if_pos hi, List.singleton_append, List.cons_append, readNumber]
        simp only [hsplit, hwhole, hafter, splitFraction_of_ends hrest,
          splitExponent_of_ends hrest, hshort, hvalue]
        have hneg : -(i.natAbs : Int) = i := by omega
        simp only [hneg, List.isEmpty_nil, Bool.and_self, if_true, if_false]
        rfl
      · have hminus : ∀ later, first :: more ++ rest = '-' :: later → False := by
          intro later hlater
          cases hlater
          exact absurd (hdigits '-' List.mem_cons_self) (by decide)
        rw [if_neg hi, List.nil_append, readNumber]
        · simp only [hsplit, hwhole, hafter, splitFraction_of_ends hrest,
            splitExponent_of_ends hrest, hshort, hvalue]
          have habs : (i.natAbs : Int) = i := by omega
          simp only [habs, List.isEmpty_nil, Bool.and_self, if_true, if_false]
          rfl
        · exact hminus

theorem readScalar_ofInt {i : Int} (h : Text.isOversized i = false) {rest : Text}
    (hrest : EndsNumber rest) :
    readScalar (Text.ofInt i ++ rest) = .ok (.integer i, (Text.ofInt i).length) := by
  have hnone : constants.find? (fun constant => constant.1.isPrefixOf (Text.ofInt i ++ rest)) =
      none := by
    have hdigits : ∀ c ∈ Nat.toDigits 10 i.natAbs, c.isDigit = true :=
      fun c hc => Text.isDigit_of_mem_toDigits hc
    rw [Text.ofInt_eq]
    cases hfound : Nat.toDigits 10 i.natAbs with
    | nil => exact absurd hfound Nat.toDigits_ne_nil
    | cons first more =>
        have hfirst : first.isDigit = true := hdigits first (hfound ▸ List.mem_cons_self)
        have hne : ∀ c : Char, c.isDigit = false → (c == first) = false := by
          intro c hc
          rw [beq_eq_false_iff_ne]
          rintro rfl
          rw [hc] at hfirst
          cases hfirst
        by_cases hi : i < 0 <;> simp [constants, hi, List.isPrefixOf, hne]
  rw [readScalar, hnone]
  exact readNumber_ofInt h hrest

end Relbase.Json
