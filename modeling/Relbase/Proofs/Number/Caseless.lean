import Relbase.Proofs.Number.Grammar
import Relbase.Proofs.Query.Recasing
import Relbase.Value.Comparator

/-!
# Numerals in another case

The only letter in a numeral is the mark of its exponent, and no digit of any script has a
case.  So a numeral and its lower-case form are the same number.
-/

namespace Relbase

namespace Text

/-! ## Digits have no case -/

theorem digitValue?_toLower_all (c : Char) : digitValue? c.toLower = digitValue? c :=
  apply_toLower (fun _ hc => digitValue?_toLower hc) c

theorem digitsValue_foldCase (text : Text) : digitsValue text.foldCase = digitsValue text := by
  rw [digitsValue, foldCase, List.foldl_map]
  simp only [digitValue?_toLower_all]
  rfl

/-- Whether a run ends before ten consecutive characters or begins after them. -/
def CaseRun.isApart (run : CaseRun) (start : Nat) : Bool :=
  Nat.blt run.last start || Nat.blt (start + 9) run.first

theorem CaseRun.not_covers_of_isApart {run : CaseRun} {start code : Nat}
    (h : run.isApart start = true) (hstart : start ≤ code) (hend : code ≤ start + 9) :
    run.covers code = false := by
  simp only [isApart, Bool.or_eq_true, Nat.blt_eq] at h
  simp only [covers, Bool.and_eq_false_iff, decide_eq_false_iff_not, Nat.not_le]
  omega

theorem isApart_lowerRuns :
    (zeroDigits.all fun start => lowerRuns.all (·.isApart start)) = true := by
  decide +kernel

theorem lowerChar_of_isDigit {c : Char} (h : isDigit c = true) : lowerChar c = c.toLower := by
  rw [lowerChar]
  split
  · rfl
  · rename_i hcode
    rw [isDigit, digitValue?, if_neg hcode, Option.isSome_map] at h
    obtain ⟨start, hstart⟩ := Option.isSome_iff_exists.1 h
    have hapart := List.all_eq_true.1 isApart_lowerRuns start (List.mem_of_find?_eq_some hstart)
    have hrange := List.find?_some hstart
    simp only [Bool.and_eq_true, decide_eq_true_eq] at hrange
    have hnone : lowerRuns.find? (·.covers c.toNat) = none := by
      refine List.find?_eq_none.2 fun run hrun => ?_
      rw [CaseRun.not_covers_of_isApart (List.all_eq_true.1 hapart run hrun) hrange.1 hrange.2]
      exact Bool.false_ne_true
    rw [hnone, toLower_eq_self]
    exact Bool.eq_false_iff.2 fun halphanum => hcode (isAscii_of_isAlphanum halphanum)

/-- Characters whose lower-case form depends on no neighbour and is that of ASCII. -/
def isPlainlyCased (c : Char) : Bool :=
  c.toNat < 128 || isDigit c

theorem lowerFrom_of_plainlyCased {text : Text} (h : ∀ c ∈ text, isPlainlyCased c = true)
    (afterCased : Bool) : lowerFrom afterCased text = text.foldCase := by
  induction text generalizing afterCased with
  | nil => rfl
  | cons c rest ih =>
      obtain ⟨hc, hrest⟩ := List.forall_mem_cons.1 h
      have hsigma : c ≠ 'Σ' := by
        rintro rfl
        exact absurd hc (by decide)
      have hdotted : c ≠ 'İ' := by
        rintro rfl
        exact absurd hc (by decide)
      have hchar : lowerChar c = c.toLower := by
        rcases Bool.or_eq_true_iff.1 hc with hcode | hdigit
        · exact if_pos (of_decide_eq_true hcode)
        · exact lowerChar_of_isDigit hdigit
      rw [lowerFrom, if_neg hsigma, if_neg hdotted, ih hrest, hchar]
      rfl

end Text

namespace Numeral

open Text

/-! ## Reading without regard to case -/

theorem splitDigits_foldCase (text : Text) :
    splitDigits text.foldCase = ((splitDigits text).1.foldCase, (splitDigits text).2.foldCase) := by
  rw [splitDigits, takeWhile_foldCase isDigit_toLower_all, dropWhile_foldCase isDigit_toLower_all]
  rfl

theorem splitFraction_foldCase (text : Text) :
    splitFraction text.foldCase =
      ((splitFraction text).1.foldCase, (splitFraction text).2.foldCase) := by
  cases text with
  | nil => rfl
  | cons c rest =>
      by_cases hc : c = '.'
      · subst hc
        exact splitDigits_foldCase rest
      · have hlower : c.toLower ≠ '.' := fun heq => hc ((toLower_eq_iff (by decide)).1 heq)
        rw [foldCase_cons, splitFraction, splitFraction]
        · rfl
        · exact fun later heq => hc (List.cons.inj heq).1
        · exact fun later heq => hlower (List.cons.inj heq).1

theorem isMark_toLower (c : Char) :
    (c.toLower = 'e' || c.toLower = 'E') = (c = 'e' || c = 'E') :=
  apply_toLower (f := fun c : Char => (c = 'e' || c = 'E' : Bool)) (fun _ hc =>
    of_alphanum (P := fun c : Char =>
      (c.toLower = 'e' || c.toLower = 'E' : Bool) = (c = 'e' || c = 'E' : Bool))
        (by decide +kernel) hc) c

theorem exponent?_foldCase (text : Text) : exponent? text.foldCase = exponent? text := by
  cases text with
  | nil => rfl
  | cons mark rest =>
      rw [foldCase_cons, exponent?, exponent?, isMark_toLower, splitSign_foldCase]
      simp only [isEmpty_foldCase, all_foldCase isDigit_toLower_all, digitsValue_foldCase]

theorem read?_foldCase (text : Text) : read? text.foldCase = read? text := by
  have happend (first second : Text) :
      first.foldCase ++ second.foldCase = Text.foldCase (first ++ second) :=
    List.map_append.symm
  have hlength (text : Text) : text.foldCase.length = text.length := List.length_map _
  simp only [read?, splitSign_foldCase, splitDigits_foldCase, splitFraction_foldCase,
    isEmpty_foldCase, exponent?_foldCase, happend, digitsValue_foldCase, hlength]

/-! ## The lower-case form -/

theorem all_isPlainlyCased_marks : marks.all isPlainlyCased = true := by
  decide

theorem isPlainlyCased_of_read? {text : Text} (h : (read? text).isSome = true) :
    ∀ c ∈ text, isPlainlyCased c = true := by
  intro c hc
  rcases (isSome_read?_iff.1 h).mem hc with hdigit | hmark
  · exact Bool.or_eq_true_iff.2 (.inr hdigit)
  · exact List.all_eq_true.1 all_isPlainlyCased_marks c hmark

theorem read?_lower {text : Text} (h : (read? text).isSome = true) :
    read? text.lower = read? text := by
  rw [Text.lower, lowerFrom_of_plainlyCased (isPlainlyCased_of_read? h), read?_foldCase]

end Numeral

end Relbase
