import Mathlib.Data.List.Basic
import Relbase.Text.Case

/-!
# Lower case in its place

Only the capital sigma has a lower-case form that depends on its neighbours: it is final after a
cased character unless another one follows, where characters that case ignores are passed over.
So the lower-case form of a part of a text stands in the lower-case form of the whole, unless a
sigma of the part is final in one of the two and not in the other.  That can happen to a sigma
that no character of the part shields from what stands around the part, and to no other.
-/

namespace Relbase.Text

/-! ## Neighbours -/

def endsCased (text : Text) : Bool :=
  beginsCased text.reverse

/-- Whether a sigma between two texts has its final form. -/
def isFinal (before after : Text) : Bool :=
  endsCased before && !beginsCased after

theorem beginsCased_cons (c : Char) (rest : Text) :
    beginsCased (c :: rest) = if isCaseIgnorable c then beginsCased rest else isCased c := by
  cases hc : isCaseIgnorable c <;> simp [beginsCased, hc]

theorem beginsCased_append (first second : Text) :
    beginsCased (first ++ second) =
      if first.all isCaseIgnorable then beginsCased second else beginsCased first := by
  induction first with
  | nil => rfl
  | cons c rest ih =>
      rw [List.cons_append, beginsCased_cons, beginsCased_cons, ih, List.all_cons]
      cases isCaseIgnorable c <;> rfl

theorem endsCased_append (first second : Text) :
    endsCased (first ++ second) =
      if second.all isCaseIgnorable then endsCased first else endsCased second := by
  rw [endsCased, List.reverse_append, beginsCased_append, List.all_reverse]
  rfl

theorem endsCased_singleton (c : Char) :
    endsCased [c] = if isCaseIgnorable c then false else isCased c :=
  beginsCased_cons c []

theorem beginsCased_of_all {text : Text} (h : text.all isCaseIgnorable = true) :
    beginsCased text = false := by
  have happend := beginsCased_append text []
  rwa [h, List.append_nil] at happend

theorem endsCased_of_all {text : Text} (h : text.all isCaseIgnorable = true) :
    endsCased text = false :=
  beginsCased_of_all (by rwa [List.all_reverse])

theorem sigma_counts : isCaseIgnorable 'Σ' = false ∧ isCased 'Σ' = true := by
  decide +kernel

theorem beginsCased_sigma (rest : Text) : beginsCased ('Σ' :: rest) = true := by
  rw [beginsCased_cons, sigma_counts.1, sigma_counts.2]
  rfl

theorem endsCased_append_sigma (before front rest : Text) :
    endsCased (before ++ (front ++ 'Σ' :: rest)) = endsCased (front ++ 'Σ' :: rest) := by
  have hcounts : (front ++ 'Σ' :: rest).all isCaseIgnorable = false :=
    List.all_eq_false.2 ⟨'Σ', by simp, by simp [sigma_counts.1]⟩
  rw [endsCased_append, hcounts]
  rfl

/-! ## Lower case between two texts -/

def formBetween (before : Text) (c : Char) (after : Text) : Text :=
  if c = 'Σ' then if isFinal before after then ['ς'] else ['σ']
  else if c = 'İ' then ['i', '\u0307']
  else [lowerChar c]

/-- The lower-case form of a text between two others. -/
def lowerBetween (before part after : Text) : Text :=
  match part with
  | [] => []
  | c :: rest => formBetween before c (rest ++ after) ++ lowerBetween (before ++ [c]) rest after

theorem lowerFrom_eq_lowerBetween (before text : Text) :
    lowerFrom (endsCased before) text = lowerBetween before text [] := by
  induction text generalizing before with
  | nil => rfl
  | cons c rest ih =>
      have hnext : (if isCaseIgnorable c then endsCased before else isCased c) =
          endsCased (before ++ [c]) := by
        rw [endsCased_append, endsCased_singleton, List.all_cons, List.all_nil, Bool.and_true]
        cases isCaseIgnorable c <;> rfl
      rw [lowerFrom, lowerBetween, hnext, ih, List.append_nil]
      rfl

theorem lower_eq_lowerBetween (text : Text) : text.lower = lowerBetween [] text [] :=
  lowerFrom_eq_lowerBetween [] text

theorem lowerBetween_append (before first second after : Text) :
    lowerBetween before (first ++ second) after =
      lowerBetween before first (second ++ after) ++
        lowerBetween (before ++ first) second after := by
  induction first generalizing before with
  | nil => simp [lowerBetween]
  | cons c rest ih =>
      rw [List.cons_append, lowerBetween, lowerBetween, ih]
      simp

theorem lowerBetween_infix (before part after : Text) :
    lowerBetween before part after <:+: (before ++ part ++ after).lower := by
  rw [lower_eq_lowerBetween, lowerBetween_append, lowerBetween_append, List.append_nil,
    List.nil_append]
  exact List.infix_append _ _ _

theorem lowerBetween_congr {before before' part after after' : Text}
    (h : ∀ front rest, part = front ++ 'Σ' :: rest →
      isFinal (before ++ front) (rest ++ after) = isFinal (before' ++ front) (rest ++ after')) :
    lowerBetween before part after = lowerBetween before' part after' := by
  induction part generalizing before before' with
  | nil => rfl
  | cons c rest ih =>
      have hform :
          formBetween before c (rest ++ after) = formBetween before' c (rest ++ after') := by
        by_cases hc : c = 'Σ'
        · have hfinal := h [] rest (by rw [hc]; rfl)
          simp only [List.append_nil] at hfinal
          rw [formBetween, formBetween, hfinal]
        · rw [formBetween, formBetween, if_neg hc, if_neg hc]
      have hrest : lowerBetween (before ++ [c]) rest after =
          lowerBetween (before' ++ [c]) rest after' := by
        refine ih fun front later hlater => ?_
        have hfinal := h (c :: front) later (by rw [hlater]; rfl)
        simpa using hfinal
      rw [lowerBetween, lowerBetween, hform, hrest]

/-! ## Sigmas that change their form -/

/-- A sigma of a text is final between two others and not without them, or the other way round. -/
def ShiftsBetween (part before after : Text) : Prop :=
  ∃ front rest, part = front ++ 'Σ' :: rest ∧
    isFinal (before ++ front) (rest ++ after) ≠ isFinal front rest

/-- A text has a sigma whose form depends on what stands around the text: either nothing in front
of it counts and no cased character follows, or one stands in front and nothing that follows
counts. -/
def HasOpenSigma (part : Text) : Prop :=
  ∃ front rest, part = front ++ 'Σ' :: rest ∧
    (front.all isCaseIgnorable = true ∧ beginsCased rest = false ∨
      endsCased front = true ∧ rest.all isCaseIgnorable = true)

theorem exists_cut_iff {text : Text} {c : Char} {P : Text → Text → Prop} :
    (∃ front rest, text = front ++ c :: rest ∧ P front rest) ↔
      ∃ n, n < text.length ∧ text[n]? = some c ∧ P (text.take n) (text.drop (n + 1)) := by
  constructor
  · rintro ⟨front, rest, rfl, h⟩
    exact ⟨front.length, by simp, by simp, by simpa using h⟩
  · rintro ⟨n, hn, hc, h⟩
    refine ⟨_, _, ?_, h⟩
    obtain ⟨_, rfl⟩ := List.getElem?_eq_some_iff.1 hc
    simp

instance (part before after : Text) : Decidable (part.ShiftsBetween before after) :=
  decidable_of_iff _ exists_cut_iff.symm

instance (part : Text) : Decidable part.HasOpenSigma :=
  decidable_of_iff _ exists_cut_iff.symm

theorem lowerBetween_eq_lower {part before after : Text} (h : ¬ part.ShiftsBetween before after) :
    lowerBetween before part after = part.lower := by
  rw [lower_eq_lowerBetween]
  refine lowerBetween_congr fun front rest hpart => ?_
  by_contra hne
  exact h ⟨front, rest, hpart, by simpa using hne⟩

theorem lower_infix_of_not_shiftsBetween {part before after : Text}
    (h : ¬ part.ShiftsBetween before after) : part.lower <:+: (before ++ part ++ after).lower :=
  lowerBetween_eq_lower h ▸ lowerBetween_infix before part after

theorem ShiftsBetween.hasOpenSigma {part before after : Text}
    (h : part.ShiftsBetween before after) : part.HasOpenSigma := by
  obtain ⟨front, rest, hpart, hne⟩ := h
  refine ⟨front, rest, hpart, ?_⟩
  rw [isFinal, isFinal, endsCased_append, beginsCased_append] at hne
  cases hfront : front.all isCaseIgnorable with
  | true =>
      rw [hfront, endsCased_of_all hfront] at hne
      cases hrest : beginsCased rest with
      | true =>
          have hcounts : rest.all isCaseIgnorable = false := by
            by_contra hall
            rw [Bool.not_eq_false] at hall
            rw [beginsCased_of_all hall] at hrest
            cases hrest
          simp [hcounts, hrest] at hne
      | false => exact .inl ⟨rfl, rfl⟩
  | false =>
      cases hrest : rest.all isCaseIgnorable with
      | true =>
          cases hcased : endsCased front with
          | true => exact .inr ⟨rfl, rfl⟩
          | false => simp [hfront, hcased] at hne
      | false => simp [hfront, hrest] at hne

/-! ## Parts that are not found -/

theorem lowerBetween_sigma (before front rest after : Text) :
    lowerBetween before (front ++ 'Σ' :: rest) after =
      lowerBetween before front ('Σ' :: (rest ++ after)) ++
        (if isFinal (before ++ front) (rest ++ after) then 'ς' else 'σ') ::
          lowerBetween (before ++ (front ++ ['Σ'])) rest after := by
  rw [lowerBetween_append, lowerBetween, formBetween, if_pos rfl]
  split <;> simp

theorem notMem_of_all {text : Text} (h : text.all isCaseIgnorable = true) : 'Σ' ∉ text := by
  intro hmem
  have hsigma := List.all_eq_true.1 h _ hmem
  rw [sigma_counts.1] at hsigma
  cases hsigma

theorem lowerBetween_of_notMem {part : Text} (h : 'Σ' ∉ part) (before before' after after' : Text) :
    lowerBetween before part after = lowerBetween before' part after' :=
  lowerBetween_congr fun front rest hpart => absurd (by simp [hpart]) h

theorem lowerBetween_congr_after (before front rest rest' : Text) :
    lowerBetween before front ('Σ' :: rest) = lowerBetween before front ('Σ' :: rest') := by
  refine lowerBetween_congr fun first later _ => ?_
  have hcased (last : Text) :
      beginsCased (later ++ 'Σ' :: last) = beginsCased (later ++ ['Σ']) := by
    rw [beginsCased_append, beginsCased_append, beginsCased_sigma, beginsCased_sigma]
  rw [isFinal, isFinal, hcased, hcased rest']

theorem lowerBetween_congr_before (before front rest after : Text) :
    lowerBetween (before ++ (front ++ ['Σ'])) rest after =
      lowerBetween (front ++ ['Σ']) rest after := by
  refine lowerBetween_congr fun first later _ => ?_
  have hcased := endsCased_append_sigma before front first
  rw [isFinal, isFinal]
  simpa using congrArg (· && !beginsCased (later ++ after)) hcased

theorem not_infix_of_count_lt {first second : Text} {c : Char}
    (h : second.count c < first.count c) : ¬ first <:+: second := fun hpart =>
  Nat.not_le.2 h (hpart.sublist.count_le c)

theorem lowerBetween_a (before after : Text) : lowerBetween before ['a'] after = ['a'] := by
  rw [lowerBetween, lowerBetween, formBetween, if_neg (by decide), if_neg (by decide)]
  decide +kernel

/-- A text with an open sigma is part of a text in whose lower-case form its own is not found. -/
theorem HasOpenSigma.exists_not_infix {part : Text} (h : part.HasOpenSigma) :
    ∃ whole : Text, part <:+: whole ∧ ¬ part.lower <:+: whole.lower := by
  have hletter : isCaseIgnorable 'a' = false ∧ isCased 'a' = true := by decide +kernel
  obtain ⟨front, rest, rfl, ⟨hfront, hrest⟩ | ⟨hfront, hrest⟩⟩ := h
  · -- behind a letter the sigma becomes final
    refine ⟨['a'] ++ (front ++ 'Σ' :: rest), ⟨['a'], [], by simp⟩,
      not_infix_of_count_lt (c := 'σ') ?_⟩
    have halone : isFinal front rest = false := by
      rw [isFinal, endsCased_of_all hfront]
      rfl
    have hbehind : isFinal (['a'] ++ front) rest = true := by
      rw [isFinal, endsCased_append, hfront, hrest, endsCased_singleton, hletter.1, hletter.2]
      rfl
    rw [lower_eq_lowerBetween, lower_eq_lowerBetween, lowerBetween_append, lowerBetween_a,
      lowerBetween_sigma, lowerBetween_sigma]
    simp only [List.nil_append, List.append_nil, halone, hbehind, if_true, Bool.false_eq_true,
      if_false]
    rw [lowerBetween_congr_before,
      lowerBetween_of_notMem (notMem_of_all hfront) ['a'] [] _ ('Σ' :: rest)]
    simp
  · -- in front of a letter the sigma is final no more
    refine ⟨front ++ 'Σ' :: rest ++ ['a'], ⟨[], ['a'], by simp⟩,
      not_infix_of_count_lt (c := 'ς') ?_⟩
    have halone : isFinal front rest = true := by
      rw [isFinal, hfront, beginsCased_of_all hrest]
      rfl
    have hbefore : isFinal front (rest ++ ['a']) = false := by
      rw [isFinal, beginsCased_append, hrest, beginsCased_cons, hletter.1, hletter.2]
      simp
    rw [lower_eq_lowerBetween, lower_eq_lowerBetween, lowerBetween_append, lowerBetween_a,
      lowerBetween_sigma, lowerBetween_sigma]
    simp only [List.nil_append, List.append_nil, halone, hbefore, if_true, Bool.false_eq_true,
      if_false]
    rw [lowerBetween_congr_after [] front (rest ++ ['a']) rest,
      lowerBetween_of_notMem (notMem_of_all hrest) _ (front ++ ['Σ']) ['a'] []]
    simp

end Relbase.Text
