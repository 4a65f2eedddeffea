import Mathlib.Data.List.Basic
import Relbase.Proofs.Map.Lookup
import Relbase.Query.Token

/-!
# Letters and digits of ASCII

Facts about single ASCII characters are checked on all of them.  On a text of letters
and digits the full lower-case form is taken letter by letter, and it is of the same
kind as a token.
-/

namespace Relbase

/-! ## Single characters -/

/-- What holds of every ASCII character can be checked on all of them. -/
theorem of_ascii {P : Char → Prop} (h : ∀ n < 128, P (Char.ofNat n)) {c : Char}
    (hc : c.toNat < 128) : P c := by
  simpa using h c.toNat hc

theorem isAscii_of_isAlphanum {c : Char} (h : c.isAlphanum = true) : c.toNat < 128 := by
  have hclasses : (c.isUpper || c.isLower || c.isDigit) = true := h
  rw [Bool.or_eq_true, Bool.or_eq_true] at hclasses
  rcases hclasses with (hupper | hlower) | hdigit
  · have hZ : c.toNat ≤ 90 := UInt32.le_iff_toNat_le.1 (of_decide_eq_true hupper).2
    omega
  · have hz : c.toNat ≤ 122 :=
      UInt32.le_iff_toNat_le.1 (of_decide_eq_true (Bool.and_eq_true_iff.1 hlower).2)
    omega
  · have h9 : c.toNat ≤ 57 :=
      UInt32.le_iff_toNat_le.1 (of_decide_eq_true (Bool.and_eq_true_iff.1 hdigit).2)
    omega

theorem of_alphanum {P : Char → Prop}
    (h : ∀ n < 128, (Char.ofNat n).isAlphanum = true → P (Char.ofNat n)) {c : Char}
    (hc : c.isAlphanum = true) : P c :=
  of_ascii (P := fun c => c.isAlphanum = true → P c) h (isAscii_of_isAlphanum hc) hc

theorem classes_of_isAlphanum {c : Char} (h : c.isAlphanum = true) :
    Text.isBlank c = false ∧ Text.isLineBreak c = false ∧ Token.isSymbol c = false :=
  of_alphanum (P := fun c =>
    Text.isBlank c = false ∧ Text.isLineBreak c = false ∧ Token.isSymbol c = false)
    (by decide +kernel) h

theorem isBlank_of_isAlphanum {c : Char} (h : c.isAlphanum = true) : Text.isBlank c = false :=
  (classes_of_isAlphanum h).1

theorem isLineBreak_of_isAlphanum {c : Char} (h : c.isAlphanum = true) :
    Text.isLineBreak c = false :=
  (classes_of_isAlphanum h).2.1

theorem isSymbol_of_isAlphanum {c : Char} (h : c.isAlphanum = true) : Token.isSymbol c = false :=
  (classes_of_isAlphanum h).2.2

theorem ne_of_isAlphanum {c d : Char} (h : c.isAlphanum = true) (hd : d.isAlphanum = false) :
    c ≠ d := by
  rintro rfl
  simp [h] at hd

theorem toLower_of_isAlphanum {c : Char} (h : c.isAlphanum = true) :
    c.toLower.isAlphanum = true ∧ c.toUpper.toLower = c.toLower ∧
      TokenKind.capital c.toLower = TokenKind.capital c ∧
        Text.digitValue? c.toLower = Text.digitValue? c ∧
          (Text.isDigit c = true → c.toUpper = c) :=
  of_alphanum (P := fun c => c.toLower.isAlphanum = true ∧ c.toUpper.toLower = c.toLower ∧
    TokenKind.capital c.toLower = TokenKind.capital c ∧
      Text.digitValue? c.toLower = Text.digitValue? c ∧ (Text.isDigit c = true → c.toUpper = c))
    (by decide +kernel) h

theorem isAlphanum_toLower {c : Char} (h : c.isAlphanum = true) : c.toLower.isAlphanum = true :=
  (toLower_of_isAlphanum h).1

theorem toLower_toUpper {c : Char} (h : c.isAlphanum = true) : c.toUpper.toLower = c.toLower :=
  (toLower_of_isAlphanum h).2.1

theorem capital_toLower {c : Char} (h : c.isAlphanum = true) :
    TokenKind.capital c.toLower = TokenKind.capital c :=
  (toLower_of_isAlphanum h).2.2.1

theorem digitValue?_toLower {c : Char} (h : c.isAlphanum = true) :
    Text.digitValue? c.toLower = Text.digitValue? c :=
  (toLower_of_isAlphanum h).2.2.2.1

theorem isDigit_toLower {c : Char} (h : c.isAlphanum = true) :
    Text.isDigit c.toLower = Text.isDigit c := by
  rw [Text.isDigit, Text.isDigit, digitValue?_toLower h]

theorem toUpper_of_isDigit {c : Char} (h : Text.isDigit c = true) (hc : c.isAlphanum = true) :
    c.toUpper = c :=
  (toLower_of_isAlphanum hc).2.2.2.2 h

theorem toLower_eq_self {c : Char} (h : c.isAlphanum = false) : c.toLower = c := by
  refine dif_neg fun hletter => ?_
  have hclasses : (c.isUpper || c.isLower || c.isDigit) = false := h
  have hupper : c.isUpper = true := decide_eq_true hletter
  rw [hupper] at hclasses
  cases hclasses

theorem isAlphanum_of_toLower {c : Char} (h : c.toLower.isAlphanum = true) :
    c.isAlphanum = true := by
  cases hc : c.isAlphanum with
  | true => rfl
  | false =>
      rw [toLower_eq_self hc, hc] at h
      cases h

theorem toUpper_eq_self {c : Char} (h : c.isAlphanum = false) : c.toUpper = c := by
  refine dif_neg fun hletter => ?_
  have hclasses : (c.isUpper || c.isLower || c.isDigit) = false := h
  have hlower : c.isLower = true :=
    Bool.and_eq_true_iff.2 ⟨decide_eq_true hletter.1, decide_eq_true hletter.2⟩
  simp [hlower] at hclasses

theorem isAlphanum_of_toUpper {c : Char} (h : c.toUpper.isAlphanum = true) :
    c.isAlphanum = true := by
  cases hc : c.isAlphanum with
  | true => rfl
  | false =>
      rw [toUpper_eq_self hc, hc] at h
      cases h

theorem capital_of_isAlphanum {c : Char} (h : c.isAlphanum = true) :
    TokenKind.capital c = c.toUpper := by
  rw [TokenKind.capital, if_neg (ne_of_isAlphanum h (by decide)),
    if_neg (ne_of_isAlphanum h (by decide))]

/-! ## Texts -/

namespace Text

theorem lowerFrom_of_ascii {text : Text} (h : ∀ c ∈ text, c.toNat < 128) (afterCased : Bool) :
    lowerFrom afterCased text = text.map Char.toLower := by
  induction text generalizing afterCased with
  | nil => rfl
  | cons c rest ih =>
      obtain ⟨hcode, hrest⟩ := List.forall_mem_cons.1 h
      have hchar : lowerChar c = c.toLower := if_pos hcode
      have hne {d : Char} (hd : ¬ d.toNat < 128) : c ≠ d := fun heq => hd (heq ▸ hcode)
      rw [lowerFrom, if_neg (hne (by decide)), if_neg (hne (by decide)), ih hrest, hchar]
      rfl

theorem lower_of_ascii {text : Text} (h : ∀ c ∈ text, c.toNat < 128) :
    text.lower = text.map Char.toLower :=
  lowerFrom_of_ascii h false

theorem lower_of_alphanum {text : Text} (h : text.all Char.isAlphanum = true) :
    text.lower = text.map Char.toLower :=
  lower_of_ascii fun c hc => isAscii_of_isAlphanum (List.all_eq_true.1 h c hc)

theorem alphanum_lower {text : Text} (h : text.all Char.isAlphanum = true) :
    text.lower.all Char.isAlphanum = true := by
  rw [lower_of_alphanum h]
  simp only [List.all_map, List.all_eq_true, Function.comp_apply] at h ⊢
  exact fun c hc => isAlphanum_toLower (h c hc)

theorem splitSign_of_alphanum {text : Text} (h : text.all Char.isAlphanum = true) :
    Numeral.splitSign text = (false, text) := by
  cases text with
  | nil => rfl
  | cons c rest =>
      simp only [List.all_cons, Bool.and_eq_true] at h
      unfold Numeral.splitSign
      split
      · rename_i hc
        cases hc
        exact absurd h.1 (by decide)
      · rename_i hc
        cases hc
        exact absurd h.1 (by decide)
      · rfl

theorem isIntegerNumeral_of_alphanum {text : Text} (h : text.all Char.isAlphanum = true) :
    text.isIntegerNumeral = (!text.isEmpty && text.all isDigit) := by
  simp [isIntegerNumeral, splitSign_of_alphanum h]

theorem isDecimalNumeral_of_alphanum {text : Text} (h : text.all Char.isAlphanum = true) :
    text.isDecimalNumeral = text.isIntegerNumeral := by
  have hsplit := List.takeWhile_append_dropWhile (p := isDigit) (l := text)
  rw [isIntegerNumeral_of_alphanum h]
  simp only [isDecimalNumeral, splitSign_of_alphanum h, Numeral.splitDigits]
  cases hrest : text.dropWhile isDigit with
  | nil =>
      rw [hrest, List.append_nil] at hsplit
      have hall : text.all isDigit = true := by
        rw [← hsplit]
        exact List.all_takeWhile
      rw [hsplit, hall]
  | cons c later =>
      have hc : isDigit c = false := by
        have := List.head?_dropWhile_not isDigit text
        rw [hrest] at this
        simpa using this
      have hmem : c ∈ text := (List.dropWhile_suffix isDigit).subset (hrest ▸ List.mem_cons_self)
      have hpoint : c ≠ '.' := ne_of_isAlphanum (List.all_eq_true.1 h c hmem) (by decide)
      have hall : text.all isDigit = false := List.all_eq_false.2 ⟨c, hmem, by simp [hc]⟩
      rw [hall, Bool.and_false]
      split
      · rename_i hnil
        cases hnil
      · rename_i hcons
        cases hcons
        exact absurd rfl hpoint
      · simp

end Text

/-! ## Identifiers -/

namespace TokenKind

theorem ne_identifier_of_fixed {key : Text} {kind : TokenKind}
    (h : Assoc.get? key fixed = some kind) : kind ≠ .identifier := by
  have hall : ∀ entry ∈ fixed, entry.2 ≠ .identifier := by decide +kernel
  exact hall _ (Assoc.mem_of_get? h)

theorem classify_eq_identifier {text : Text} :
    classify text = .identifier ↔
      Assoc.get? (text.map capital) fixed = none ∧ text.isIntegerNumeral = false ∧
        text ≠ [] ∧ text.all Char.isAlphanum = true := by
  constructor
  · intro h
    unfold classify at h
    split at h
    · rename_i hfixed
      exact absurd h (ne_identifier_of_fixed hfixed)
    · rename_i hfixed
      split at h
      · cases h
      · rename_i hinteger
        split at h
        · cases h
        · split at h
          · cases h
          · split at h
            · rename_i hword
              simp only [Bool.and_eq_true, Bool.not_eq_true', List.isEmpty_eq_false_iff] at hword
              exact ⟨hfixed, by simpa using hinteger, hword.1, hword.2⟩
            · cases h
  · rintro ⟨hfixed, hinteger, hne, hword⟩
    have hquoted : isQuoted text = false := by
      cases text with
      | nil => exact absurd rfl hne
      | cons c rest =>
          simp only [List.all_cons, Bool.and_eq_true] at hword
          have hquote : c ≠ '\x27' := ne_of_isAlphanum hword.1 (by decide)
          simp [isQuoted, hquote]
    simp only [classify, hfixed, hinteger, Text.isDecimalNumeral_of_alphanum hword, hquoted, hword]
    simp [hne]

end TokenKind

def IsIdentifier (text : Text) : Prop :=
  TokenKind.classify text = .identifier

instance (text : Text) : Decidable (IsIdentifier text) :=
  inferInstanceAs (Decidable (TokenKind.classify text = .identifier))

namespace IsIdentifier

theorem alphanum {text : Text} (h : IsIdentifier text) : text.all Char.isAlphanum = true :=
  (TokenKind.classify_eq_identifier.1 h).2.2.2

theorem ne_nil {text : Text} (h : IsIdentifier text) : text ≠ [] :=
  (TokenKind.classify_eq_identifier.1 h).2.2.1

theorem lower {text : Text} (h : IsIdentifier text) : IsIdentifier text.lower := by
  obtain ⟨hfixed, hinteger, hne, hword⟩ := TokenKind.classify_eq_identifier.1 h
  have hchars : ∀ c ∈ text, c.isAlphanum = true := List.all_eq_true.1 hword
  refine TokenKind.classify_eq_identifier.2
    ⟨?_, ?_, ?_, Text.alphanum_lower hword⟩
  · have hcapital : text.map (TokenKind.capital ∘ Char.toLower) = text.map TokenKind.capital :=
      List.map_congr_left fun c hc => capital_toLower (hchars c hc)
    rwa [Text.lower_of_alphanum hword, List.map_map, hcapital]
  · rw [Text.isIntegerNumeral_of_alphanum hword] at hinteger
    rw [Text.isIntegerNumeral_of_alphanum (Text.alphanum_lower hword),
      Text.lower_of_alphanum hword, List.all_map, List.isEmpty_map]
    have hdigits : text.all (Text.isDigit ∘ Char.toLower) = text.all Text.isDigit := by
      rw [Bool.eq_iff_iff]
      simp only [List.all_eq_true, Function.comp_apply]
      exact forall₂_congr fun c hc => by rw [isDigit_toLower (hchars c hc)]
    rwa [hdigits]
  · rw [Text.lower_of_alphanum hword]
    simpa using hne

end IsIdentifier

end Relbase
