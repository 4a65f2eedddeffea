import Relbase.Proofs.Text.Ascii

/-!
# The grammar of numerals

A numeral is a sign or none, digits with a point among them or none, and an exponent or none.
What reads as a number is exactly what this grammar derives.
-/

namespace Relbase.Numeral

open Text

/-! ## Grammar -/

def IsSign (text : Text) : Prop :=
  text = [] ∨ text = ['+'] ∨ text = ['-']

def AreDigits (text : Text) : Prop :=
  ∀ c ∈ text, isDigit c = true

inductive IsMantissa : Text → Prop
  | whole {digits : Text} (hne : digits ≠ []) (h : AreDigits digits) : IsMantissa digits
  | pointed {whole fraction : Text} (hne : whole ≠ []) (hwhole : AreDigits whole)
      (hfraction : AreDigits fraction) : IsMantissa (whole ++ '.' :: fraction)
  | fraction {digits : Text} (hne : digits ≠ []) (h : AreDigits digits) :
      IsMantissa ('.' :: digits)

inductive IsExponent : Text → Prop
  | none : IsExponent []
  | some {mark : Char} {sign digits : Text} (hmark : mark = 'e' ∨ mark = 'E')
      (hsign : IsSign sign) (hne : digits ≠ []) (h : AreDigits digits) :
      IsExponent (mark :: (sign ++ digits))

def IsNumeral (text : Text) : Prop :=
  ∃ sign mantissa exponent, IsSign sign ∧ IsMantissa mantissa ∧ IsExponent exponent ∧
    text = sign ++ (mantissa ++ exponent)

/-! ## First characters -/

theorem head_of_digits {digits : Text} (hne : digits ≠ []) (h : AreDigits digits) (rest : Text) :
    ∀ c ∈ (digits ++ rest).head?, isDigit c = true := by
  cases digits with
  | nil => exact absurd rfl hne
  | cons first digits => simpa using h first List.mem_cons_self

theorem ne_sign_of_isDigit {c : Char} (h : isDigit c = true) : c ≠ '+' ∧ c ≠ '-' := by
  constructor <;> rintro rfl <;> exact absurd h (by decide)

theorem IsMantissa.head {mantissa : Text} (h : IsMantissa mantissa) (rest : Text) :
    ∀ c ∈ (mantissa ++ rest).head?, c ≠ '+' ∧ c ≠ '-' := by
  intro c hc
  cases h with
  | whole hne h => exact ne_sign_of_isDigit (head_of_digits hne h rest c hc)
  | pointed hne hwhole hfraction =>
      rw [List.append_assoc] at hc
      exact ne_sign_of_isDigit (head_of_digits hne hwhole _ c hc)
  | fraction hne h =>
      cases hc
      decide

theorem IsExponent.head {exponent : Text} (h : IsExponent exponent) :
    ∀ c ∈ exponent.head?, isDigit c = false ∧ c ≠ '.' := by
  intro c hc
  cases h with
  | none => cases hc
  | some hmark _ _ _ =>
      cases hc
      rcases hmark with rfl | rfl <;> decide

/-! ## Signs and digits -/

theorem exists_isSign (text : Text) :
    ∃ sign, IsSign sign ∧ text = sign ++ (splitSign text).2 := by
  unfold splitSign
  split
  · exact ⟨['+'], by simp [IsSign]⟩
  · exact ⟨['-'], by simp [IsSign]⟩
  · exact ⟨[], by simp [IsSign]⟩

theorem splitSign_append {sign rest : Text} (h : IsSign sign)
    (hrest : ∀ c ∈ rest.head?, c ≠ '+' ∧ c ≠ '-') : (splitSign (sign ++ rest)).2 = rest := by
  rcases h with rfl | rfl | rfl
  · rw [List.nil_append]
    unfold splitSign
    split
    · exact absurd rfl (hrest '+' rfl).1
    · exact absurd rfl (hrest '-' rfl).2
    · rfl
  · rfl
  · rfl

theorem areDigits_splitDigits (text : Text) : AreDigits (splitDigits text).1 :=
  List.all_eq_true.1 List.all_takeWhile

theorem splitDigits_append_splitDigits (text : Text) :
    (splitDigits text).1 ++ (splitDigits text).2 = text :=
  List.takeWhile_append_dropWhile

theorem splitDigits_append {digits rest : Text} (h : AreDigits digits)
    (hrest : ∀ c ∈ rest.head?, isDigit c = false) : splitDigits (digits ++ rest) = (digits, rest) := by
  rw [splitDigits, List.takeWhile_append_of_pos h, List.dropWhile_append_of_pos h]
  cases rest with
  | nil => simp
  | cons c rest => simp [hrest c rfl]

theorem splitFraction_of_head {text : Text} (h : ∀ c ∈ text.head?, c ≠ '.') :
    splitFraction text = ([], text) := by
  fun_cases splitFraction text with
  | case1 rest => exact absurd rfl (h '.' rfl)
  | case2 => rfl

/-! ## What can be read -/

theorem isSome_exponent?_iff {text : Text} : (exponent? text).isSome = true ↔ IsExponent text := by
  constructor
  · intro h
    cases text with
    | nil => exact .none
    | cons mark rest =>
        rw [exponent?] at h
        split at h
        · rename_i hmark
          simp only at h
          split at h
          · rename_i hdigits
            obtain ⟨sign, hsign, hrest⟩ := exists_isSign rest
            rw [hrest]
            simp only [Bool.and_eq_true, Bool.not_eq_true', List.isEmpty_eq_false_iff,
              List.all_eq_true] at hdigits
            exact .some (by simpa using hmark) hsign hdigits.1 hdigits.2
          · cases h
        · cases h
  · intro h
    cases h with
    | none => rfl
    | some hmark hsign hne hdigits =>
        rename_i mark sign digits
        have hhead := head_of_digits hne hdigits []
        rw [List.append_nil] at hhead
        have hsplit := splitSign_append hsign fun c hc => ne_sign_of_isDigit (hhead c hc)
        have hall : digits.all isDigit = true := List.all_eq_true.2 hdigits
        simp [exponent?, hmark, hsplit, hne, hall]

def ReadsUnsigned (text : Text) : Prop :=
  let whole := splitDigits text
  let fraction := splitFraction whole.2
  (whole.1 ≠ [] ∨ fraction.1 ≠ []) ∧ IsExponent fraction.2

theorem isSome_read?_iff_readsUnsigned {text : Text} :
    (read? text).isSome = true ↔ ReadsUnsigned (splitSign text).2 := by
  simp only [read?, ReadsUnsigned, ← isSome_exponent?_iff]
  split
  · rename_i hempty
    simp_all
  · rename_i hsome
    simp only [Bool.and_eq_true, List.isEmpty_iff] at hsome
    simp only [Option.isSome_map, ne_eq, ← Decidable.not_and_iff_not_or_not, hsome,
      not_false_eq_true, true_and]

theorem ReadsUnsigned.exists_mantissa {text : Text} (h : ReadsUnsigned text) :
    ∃ mantissa exponent, IsMantissa mantissa ∧ IsExponent exponent ∧
      text = mantissa ++ exponent := by
  rw [ReadsUnsigned] at h
  have hwhole := areDigits_splitDigits text
  have htext := splitDigits_append_splitDigits text
  generalize splitDigits text = split at h hwhole htext
  obtain ⟨whole, afterWhole⟩ := split
  simp only at h hwhole htext
  -- The point decides which of the three forms the mantissa has.
  cases afterWhole with
  | nil => exact ⟨whole, [], .whole (by simpa [splitFraction] using h.1) hwhole, .none, htext.symm⟩
  | cons c rest =>
      by_cases hpoint : c = '.'
      · subst hpoint
        rw [splitFraction] at h
        have hfraction := areDigits_splitDigits rest
        refine ⟨whole ++ '.' :: (splitDigits rest).1, (splitDigits rest).2, ?_, h.2, ?_⟩
        · by_cases hempty : whole = []
          · subst hempty
            exact .fraction (h.1.resolve_left (by simp)) hfraction
          · exact .pointed hempty hwhole hfraction
        · rw [← htext, List.append_assoc, List.cons_append, splitDigits_append_splitDigits]
      · rw [splitFraction_of_head (by simpa using hpoint)] at h
        exact ⟨whole, c :: rest, .whole (by simpa using h.1) hwhole, h.2, htext.symm⟩

theorem readsUnsigned_append {mantissa exponent : Text} (hmantissa : IsMantissa mantissa)
    (hexponent : IsExponent exponent) : ReadsUnsigned (mantissa ++ exponent) := by
  have hhead := hexponent.head
  rw [ReadsUnsigned]
  cases hmantissa with
  | whole hne hdigits =>
      rw [splitDigits_append hdigits fun c hc => (hhead c hc).1,
        splitFraction_of_head fun c hc => (hhead c hc).2]
      exact ⟨.inl hne, hexponent⟩
  | pointed hne hwhole hfraction =>
      rw [List.append_assoc, List.cons_append,
        splitDigits_append hwhole fun c hc => by cases hc; decide, splitFraction,
        splitDigits_append hfraction fun c hc => (hhead c hc).1]
      exact ⟨.inl hne, hexponent⟩
  | fraction hne hdigits =>
      rename_i digits
      have hpoint : splitDigits ('.' :: digits ++ exponent) = ([], '.' :: (digits ++ exponent)) :=
        @splitDigits_append [] ('.' :: (digits ++ exponent)) (by simp [AreDigits])
          fun c hc => by cases hc; decide
      rw [hpoint, splitFraction, splitDigits_append hdigits fun c hc => (hhead c hc).1]
      exact ⟨.inr hne, hexponent⟩

/-- What can be read as a number is what the grammar derives. -/
theorem isSome_read?_iff {text : Text} : (read? text).isSome = true ↔ IsNumeral text := by
  rw [isSome_read?_iff_readsUnsigned]
  constructor
  · intro h
    obtain ⟨sign, hsign, htext⟩ := exists_isSign text
    obtain ⟨mantissa, exponent, hmantissa, hexponent, hunsigned⟩ := h.exists_mantissa
    exact ⟨sign, mantissa, exponent, hsign, hmantissa, hexponent, hunsigned ▸ htext⟩
  · rintro ⟨sign, mantissa, exponent, hsign, hmantissa, hexponent, rfl⟩
    rw [splitSign_append hsign (hmantissa.head exponent)]
    exact readsUnsigned_append hmantissa hexponent

/-! ## Characters -/

theorem IsSign.mem {sign : Text} (h : IsSign sign) {c : Char} (hc : c ∈ sign) :
    c = '+' ∨ c = '-' := by
  rcases h with rfl | rfl | rfl
  · cases hc
  · exact .inl (List.mem_singleton.1 hc)
  · exact .inr (List.mem_singleton.1 hc)

theorem IsMantissa.mem {mantissa : Text} (h : IsMantissa mantissa) {c : Char}
    (hc : c ∈ mantissa) : isDigit c = true ∨ c = '.' := by
  cases h with
  | whole _ hdigits => exact .inl (hdigits c hc)
  | pointed _ hwhole hfraction =>
      rcases List.mem_append.1 hc with hc | hc
      · exact .inl (hwhole c hc)
      · exact (List.mem_cons.1 hc).symm.imp_left (hfraction c)
  | fraction _ hdigits => exact (List.mem_cons.1 hc).symm.imp_left (hdigits c)

def marks : Text :=
  ['+', '-', '.', 'e', 'E']

theorem IsNumeral.mem {text : Text} (h : IsNumeral text) {c : Char} (hc : c ∈ text) :
    isDigit c = true ∨ c ∈ marks := by
  obtain ⟨sign, mantissa, exponent, hsign, hmantissa, hexponent, rfl⟩ := h
  have hmark {sign : Text} (hsign : IsSign sign) (hc : c ∈ sign) : c ∈ marks := by
    rcases hsign.mem hc with rfl | rfl <;> decide
  simp only [List.mem_append] at hc
  rcases hc with hc | hc | hc
  · exact .inr (hmark hsign hc)
  · rcases hmantissa.mem hc with hdigit | rfl
    · exact .inl hdigit
    · exact .inr (by decide)
  · cases hexponent with
    | none => cases hc
    | some hfirst hsign _ hdigits =>
        simp only [List.mem_cons, List.mem_append] at hc
        rcases hc with rfl | hc | hc
        · rcases hfirst with rfl | rfl <;> exact .inr (by decide)
        · exact .inr (hmark hsign hc)
        · exact .inl (hdigits c hc)

end Relbase.Numeral
