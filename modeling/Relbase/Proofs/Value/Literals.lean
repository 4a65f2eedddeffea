import Relbase.Proofs.Number.Grammar
import Relbase.Proofs.Query.Recasing

/-!
# Literals and kinds of values

The scanner knows the words of a fixed kind by their capitals, and the kind of a value is found
by its lower-case form.  The two agree except where taking capitals brings a character into
ASCII that taking lower case leaves outside: the long s, which has an S for its capital.  It
stands in spellings of one word only that is a value, so a boolean literal may be stored that is
not a boolean.
-/

namespace Relbase

/-! ## Capitals and lower case -/

namespace Text

/-- Only the Kelvin sign comes into ASCII from outside when it is taken in lower case. -/
theorem ends_lowerRuns : ∀ run ∈ lowerRuns, run.last < 128 ∨ 128 ≤ run.first + run.shift ∨
    run = ⟨0x212A, 0x212A, 1, -8383⟩ := by
  decide +kernel

theorem lowerChar_eq_iff {c d : Char} (hd : d.isAlphanum = true) (hk : d ≠ 'k') :
    lowerChar c = d ↔ c.toLower = d := by
  by_cases hcode : c.toNat < 128
  · rw [lowerChar, if_pos hcode]
  have hd128 := isAscii_of_isAlphanum hd
  have hupper : c.toLower ≠ d := by
    rintro rfl
    exact hcode (isAscii_of_isAlphanum (isAlphanum_of_toLower hd))
  refine iff_of_false ?_ hupper
  rw [lowerChar, if_neg hcode]
  cases hfind : lowerRuns.find? (·.covers c.toNat) with
  | none =>
      rintro rfl
      exact hcode hd128
  | some run =>
      change Char.ofNat (c.toNat + run.shift).toNat ≠ d
      have hcovers := List.find?_some hfind
      simp only [CaseRun.covers, Bool.and_eq_true, decide_eq_true_eq] at hcovers
      obtain ⟨⟨hfirst, hlast⟩, -⟩ := hcovers
      rcases ends_lowerRuns run (List.mem_of_find?_eq_some hfind) with hascii | hshift | rfl
      · omega
      · intro heq
        rcases toNat_ofNat_or (c.toNat + run.shift).toNat with hcode | hnull
        · rw [heq] at hcode
          omega
        · rw [← heq, hnull] at hd
          cases hd
      · have hkelvin : c.toNat = 0x212A := Nat.le_antisymm hlast hfirst
        rw [hkelvin]
        exact fun heq => hk (heq ▸ rfl)

theorem lowerFrom_eq_iff {text word : Text} (hword : ∀ d ∈ word, d.isAlphanum = true ∧ d ≠ 'k')
    (afterCased : Bool) : lowerFrom afterCased text = word ↔ text.foldCase = word := by
  induction text generalizing word afterCased with
  | nil => rfl
  | cons c rest ih =>
      have hmem {d : Char} (hd : d.isAlphanum = false) : d ∉ word := fun hmem => by
        rw [(hword d hmem).1] at hd
        cases hd
      rw [lowerFrom, foldCase_cons]
      by_cases hsigma : c = 'Σ'
      · subst hsigma
        refine iff_of_false (fun heq => ?_) fun heq => ?_
        · rw [if_pos rfl] at heq
          split at heq
          · exact hmem (d := 'ς') (by decide) (heq ▸ by simp)
          · exact hmem (d := 'σ') (by decide) (heq ▸ by simp)
        · exact hmem (d := 'Σ') (by decide) (heq ▸ List.mem_cons_self)
      by_cases hdotted : c = 'İ'
      · subst hdotted
        refine iff_of_false (fun heq => ?_) fun heq => ?_
        · exact hmem (d := '\u0307') (by decide) (heq ▸ by simp)
        · exact hmem (d := 'İ') (by decide) (heq ▸ List.mem_cons_self)
      rw [if_neg hsigma, if_neg hdotted]
      cases word with
      | nil => simp
      | cons d word =>
          obtain ⟨hd, hword⟩ := List.forall_mem_cons.1 hword
          simp [lowerChar_eq_iff hd.1 hd.2, ih hword]

theorem lower_eq_iff {text word : Text} (hword : ∀ d ∈ word, d.isAlphanum = true ∧ d ≠ 'k') :
    text.lower = word ↔ text.foldCase = word :=
  lowerFrom_eq_iff hword false

end Text

namespace TokenKind

theorem isAlphanum_of_isUpper {c : Char} (h : c.isUpper = true) : c.isAlphanum = true := by
  have hclasses : (c.isUpper || c.isLower || c.isDigit) = true := by simp [h]
  exact hclasses

theorem capital_of_isUpper {c : Char} (h : c.isUpper = true) : capital c = c := by
  rw [capital_of_isAlphanum (isAlphanum_of_isUpper h)]
  refine dif_neg fun hlower => ?_
  have hZ : c.toNat ≤ 90 := UInt32.le_iff_toNat_le.1 (of_decide_eq_true h).2
  have ha : 97 ≤ c.toNat := UInt32.le_iff_toNat_le.1 hlower.1
  omega

theorem capital_eq_iff {c d : Char} (hd : d.isUpper = true) (hi : d ≠ 'I') :
    capital c = d ∧ c ≠ 'ſ' ↔ c.toLower = d.toLower := by
  have hclasses := isAlphanum_of_isUpper hd
  constructor
  · rintro ⟨hcapital, hlong⟩
    rw [capital, if_neg hlong] at hcapital
    split at hcapital
    · exact absurd hcapital.symm hi
    · have hc : c.isAlphanum = true := isAlphanum_of_toUpper (hcapital ▸ hclasses)
      rw [← hcapital, toLower_toUpper hc]
  · intro hlower
    have hc : c.isAlphanum = true :=
      isAlphanum_of_toLower (hlower ▸ isAlphanum_toLower hclasses)
    refine ⟨?_, ne_of_isAlphanum hc (by decide)⟩
    rw [← capital_toLower hc, hlower, capital_toLower hclasses, capital_of_isUpper hd]

theorem map_capital_eq_iff {text word : Text} (hword : ∀ d ∈ word, d.isUpper = true ∧ d ≠ 'I') :
    text.map capital = word ∧ 'ſ' ∉ text ↔ text.foldCase = word.foldCase := by
  induction text generalizing word with
  | nil => simp [Text.foldCase, eq_comm]
  | cons c rest ih =>
      cases word with
      | nil => simp
      | cons d word =>
          obtain ⟨hd, hword⟩ := List.forall_mem_cons.1 hword
          rw [Text.foldCase_cons, Text.foldCase_cons, List.cons.injEq, ← ih hword,
            ← capital_eq_iff hd.1 hd.2]
          simp only [List.map_cons, List.cons.injEq, List.mem_cons, not_or, ne_eq, eq_comm]
          tauto

/-- A word that both of the foldings keep in ASCII is found by both in the same texts, but for
the long s. -/
theorem lower_eq_iff_capital {text word : Text}
    (hword : ∀ d ∈ word, d.isUpper = true ∧ d ≠ 'I' ∧ d ≠ 'K') :
    text.lower = word.foldCase ↔ text.map capital = word ∧ 'ſ' ∉ text := by
  rw [map_capital_eq_iff fun d hd => ⟨(hword d hd).1, (hword d hd).2.1⟩]
  refine Text.lower_eq_iff fun d hd => ?_
  obtain ⟨c, hc, rfl⟩ := List.mem_map.1 hd
  obtain ⟨hupper, -, hk⟩ := hword c hc
  have hclasses := isAlphanum_of_isUpper hupper
  refine ⟨isAlphanum_toLower hclasses, fun heq => hk ?_⟩
  rw [← capital_of_isUpper hupper, ← capital_toLower hclasses, heq]
  rfl

/-! ## Words of a fixed kind -/

theorem of_mem_fixed : ∀ entry ∈ fixed, entry.1.all (!Text.isDigit ·) = true ∧
    (entry.2 = .literal .boolean → entry.1 = "TRUE".toList ∨ entry.1 = "FALSE".toList) ∧
    (entry.2 = .literal .null → entry.1 = "NULL".toList) ∧
    entry.2 ≠ .literal .integer ∧ entry.2 ≠ .literal .decimal ∧ entry.2 ≠ .literal .text := by
  decide +kernel

theorem get?_fixed_eq_literal_iff {key : Text} {kind : ValueKind} :
    Assoc.get? key fixed = some (.literal kind) ↔
      kind = .boolean ∧ (key = "TRUE".toList ∨ key = "FALSE".toList) ∨
        kind = .null ∧ key = "NULL".toList := by
  constructor
  · intro h
    obtain ⟨-, hboolean, hnull, hinteger, hdecimal, htext⟩ := of_mem_fixed _ (Assoc.mem_of_get? h)
    cases kind with
    | integer => exact absurd rfl hinteger
    | decimal => exact absurd rfl hdecimal
    | boolean => exact .inl ⟨rfl, hboolean rfl⟩
    | null => exact .inr ⟨rfl, hnull rfl⟩
    | text => exact absurd rfl htext
  · rintro (⟨rfl, rfl | rfl⟩ | ⟨rfl, rfl⟩) <;> rfl

theorem capital_of_isDigit {c : Char} (h : Text.isDigit c = true) : capital c = c := by
  have hne {d : Char} (hd : Text.isDigit d = false) : c ≠ d := by
    rintro rfl
    rw [h] at hd
    cases hd
  rw [capital, if_neg (hne (by decide)), if_neg (hne (by decide))]
  cases hc : c.isAlphanum with
  | true => exact toUpper_of_isDigit h hc
  | false => exact toUpper_eq_self hc

theorem get?_fixed_of_mem_digit {text : Text} {c : Char} (hc : c ∈ text)
    (hdigit : Text.isDigit c = true) : Assoc.get? (text.map capital) fixed = none := by
  cases hget : Assoc.get? (text.map capital) fixed with
  | none => rfl
  | some kind =>
      have hnone := List.all_eq_true.1 (of_mem_fixed _ (Assoc.mem_of_get? hget)).1 (capital c)
        (List.mem_map_of_mem hc)
      rw [capital_of_isDigit hdigit, hdigit] at hnone
      cases hnone

end TokenKind

/-! ## Numerals -/

namespace Text

open Numeral

theorem isDecimalNumeral_of_isIntegerNumeral {text : Text} (h : text.isIntegerNumeral = true) :
    text.isDecimalNumeral = true := by
  simp only [isIntegerNumeral, Bool.and_eq_true, Bool.not_eq_true', List.isEmpty_eq_false_iff,
    List.all_eq_true] at h
  obtain ⟨hne, hdigits⟩ := h
  have hsplit := @splitDigits_append _ [] hdigits (by simp)
  rw [List.append_nil] at hsplit
  simp [isDecimalNumeral, hsplit, hne]

theorem isIntegerNumeral_of_not_isDecimalNumeral {text : Text}
    (h : text.isDecimalNumeral = false) : text.isIntegerNumeral = false := by
  refine Bool.eq_false_iff.2 fun hinteger => ?_
  rw [isDecimalNumeral_of_isIntegerNumeral hinteger] at h
  cases h

theorem exists_of_isDecimalNumeral {text : Text} (h : text.isDecimalNumeral = true) :
    ∃ sign whole rest, IsSign sign ∧ whole ≠ [] ∧ AreDigits whole ∧ IsMantissa (whole ++ rest) ∧
      text = sign ++ (whole ++ rest) := by
  obtain ⟨sign, hsign, htext⟩ := exists_isSign text
  have hwhole := areDigits_splitDigits (splitSign text).2
  have hunsigned := splitDigits_append_splitDigits (splitSign text).2
  rw [isDecimalNumeral] at h
  generalize splitDigits (splitSign text).2 = split at h hwhole hunsigned
  obtain ⟨whole, rest⟩ := split
  simp only [Bool.and_eq_true, Bool.not_eq_true', List.isEmpty_eq_false_iff] at h
  refine ⟨sign, whole, rest, hsign, h.1, hwhole, ?_, by rw [hunsigned, ← htext]⟩
  obtain ⟨hne, hrest⟩ := h
  split at hrest
  · rw [List.append_nil]
    exact .whole hne hwhole
  · rename_i fraction
    simp only [Bool.and_eq_true, List.all_eq_true] at hrest
    exact .pointed hne hwhole hrest.2
  · cases hrest

theorem isNumeral_of_isDecimalNumeral {text : Text} (h : text.isDecimalNumeral = true) :
    IsNumeral text := by
  obtain ⟨sign, whole, rest, hsign, -, -, hmantissa, htext⟩ := exists_of_isDecimalNumeral h
  exact ⟨sign, whole ++ rest, [], hsign, hmantissa, .none, by rw [List.append_nil, htext]⟩

end Text

namespace TokenKind

theorem get?_fixed_of_isDecimalNumeral {text : Text} (h : text.isDecimalNumeral = true) :
    Assoc.get? (text.map capital) fixed = none := by
  obtain ⟨sign, whole, rest, -, hne, hwhole, -, rfl⟩ := Text.exists_of_isDecimalNumeral h
  obtain ⟨c, hc⟩ := List.exists_mem_of_ne_nil whole hne
  exact get?_fixed_of_mem_digit (by simp [hc]) (hwhole c hc)

theorem classify_of_isDecimalNumeral {text : Text} (h : text.isDecimalNumeral = true) :
    classify text = .literal (ValueKind.of text) := by
  simp only [classify, get?_fixed_of_isDecimalNumeral h, ValueKind.of, h]
  cases text.isIntegerNumeral <;> rfl

theorem classify_eq_literal_of_not_numeral {text : Text} (h : text.isDecimalNumeral = false)
    {kind : ValueKind} (hkind : kind ≠ .text) :
    classify text = .literal kind ↔
      kind = .boolean ∧ (text.map capital = "TRUE".toList ∨ text.map capital = "FALSE".toList) ∨
        kind = .null ∧ text.map capital = "NULL".toList := by
  have hinteger := Text.isIntegerNumeral_of_not_isDecimalNumeral h
  rw [← get?_fixed_eq_literal_iff, classify]
  cases Assoc.get? (text.map capital) fixed with
  | some found => simp
  | none =>
      simp only [hinteger, h, Bool.false_eq_true, if_false]
      split_ifs <;> simp [Ne.symm hkind]

end TokenKind

namespace ValueKind

theorem nullText_ne : nullText ≠ trueText ∧ nullText ≠ falseText := by
  decide

theorem words_ne_nil : trueText ≠ [] ∧ falseText ≠ [] ∧ nullText ≠ [] := by
  decide

theorem of_eq_of_not_numeral {text : Text} (h : text.isDecimalNumeral = false)
    {kind : ValueKind} (hkind : kind ≠ .text) :
    text ≠ [] ∧ of text = kind ↔
      kind = .boolean ∧ (text.lower = trueText ∨ text.lower = falseText) ∨
        kind = .null ∧ text.lower = nullText := by
  have hinteger := Text.isIntegerNumeral_of_not_isDecimalNumeral h
  simp only [of, hinteger, h, Bool.false_eq_true, if_false]
  by_cases hempty : text = []
  · subst hempty
    have hlower : Text.lower [] = [] := rfl
    simp [hlower, words_ne_nil]
  by_cases hboolean : text.lower = trueText ∨ text.lower = falseText
  · have hnull : text.lower ≠ nullText := by
      rcases hboolean with htrue | hfalse
      · exact htrue ▸ nullText_ne.1.symm
      · exact hfalse ▸ nullText_ne.2.symm
    rw [if_pos hboolean]
    simp [hempty, hboolean, hnull, eq_comm (a := kind)]
  rw [if_neg hboolean]
  by_cases hnull : text.lower = nullText
  · rw [if_pos (.inr hnull)]
    simp [hempty, hnull, nullText_ne, eq_comm (a := kind)]
  · simp [hempty, hboolean, hnull, hkind.symm]

theorem longS_notMem_of_isDecimalNumeral {text : Text} (h : text.isDecimalNumeral = true) :
    'ſ' ∉ text :=
  fun hmem => absurd ((Text.isNumeral_of_isDecimalNumeral h).mem hmem) (by decide)

theorem of_eq_iff_classify_eq (text : Text) {kind : ValueKind} (hkind : kind ≠ .text) :
    text ≠ [] ∧ of text = kind ↔ TokenKind.classify text = .literal kind ∧ 'ſ' ∉ text := by
  cases hnumeral : text.isDecimalNumeral with
  | true =>
      have hempty : text ≠ [] := by
        rintro rfl
        cases hnumeral
      simp [TokenKind.classify_of_isDecimalNumeral hnumeral, hempty,
        longS_notMem_of_isDecimalNumeral hnumeral]
  | false =>
      have htrue : text.lower = trueText ↔ _ :=
        @TokenKind.lower_eq_iff_capital text "TRUE".toList (by simp)
      have hfalse : text.lower = falseText ↔ _ :=
        @TokenKind.lower_eq_iff_capital text "FALSE".toList (by simp)
      have hnull : text.lower = nullText ↔ _ :=
        @TokenKind.lower_eq_iff_capital text "NULL".toList (by simp)
      rw [of_eq_of_not_numeral hnumeral hkind,
        TokenKind.classify_eq_literal_of_not_numeral hnumeral hkind, htrue, hfalse, hnull]
      simp only [← or_and_right, ← and_assoc]

theorem eq_boolean_of_longS {text : Text} {kind : ValueKind} (hkind : kind ≠ .text)
    (hliteral : TokenKind.classify text = .literal kind) (hlong : 'ſ' ∈ text) :
    kind = .boolean := by
  have hnumeral : text.isDecimalNumeral = false :=
    Bool.eq_false_iff.2 fun h => longS_notMem_of_isDecimalNumeral h hlong
  rcases (TokenKind.classify_eq_literal_of_not_numeral hnumeral hkind).1 hliteral with
    ⟨hboolean, -⟩ | ⟨-, hnull⟩
  · exact hboolean
  · have hmem : TokenKind.capital 'ſ' ∈ "NULL".toList := hnull ▸ List.mem_map_of_mem hlong
    exact absurd hmem (by decide)

/-- A text outside quotes is stored as it is, and it is a literal of some kind exactly if the
kind is that of the value, but for the word for false with a long s: this is a boolean literal,
and as a value a mere text. -/
theorem kind_of_literal (text : Text) {kind : ValueKind} (hkind : kind ≠ .text) :
    (text ≠ [] ∧ of text = kind ↔ TokenKind.classify text = .literal kind ∧ 'ſ' ∉ text) ∧
      (TokenKind.classify text = .literal kind →
        (Token.ofRaw text).value = text ∧ ('ſ' ∈ text → kind = .boolean ∧ of text = .text)) := by
  refine ⟨of_eq_iff_classify_eq text hkind, fun hliteral => ⟨?_, fun hlong => ⟨?_, ?_⟩⟩⟩
  · simp [Token.value, Token.ofRaw, hliteral, hkind]
  · exact eq_boolean_of_longS hkind hliteral hlong
  · by_contra htext
    have hvalue := (of_eq_iff_classify_eq text htext).1 ⟨List.ne_nil_of_mem hlong, rfl⟩
    exact hvalue.2 hlong

theorem kind_of_literal_false :
    (ValueKind.boolean ≠ .text ∧ TokenKind.classify "FALSE".toList = .literal .boolean) ∧
      of "FALSE".toList = .boolean ∧ (Token.ofRaw "FALSE".toList).value = "FALSE".toList :=
  have hkind : ValueKind.boolean ≠ .text := by decide
  have hliteral : TokenKind.classify "FALSE".toList = .literal .boolean := rfl
  have hvalue := kind_of_literal "FALSE".toList hkind
  ⟨⟨hkind, hliteral⟩, (hvalue.1.2 ⟨hliteral, by decide⟩).2, (hvalue.2 hliteral).1⟩

/-- A boolean literal that is stored as no boolean. -/
theorem longS_not_boolean :
    TokenKind.classify "falſe".toList = .literal .boolean ∧
      (Token.ofRaw "falſe".toList).value = "falſe".toList ∧ of "falſe".toList = .text := by
  decide +kernel

end ValueKind

end Relbase
