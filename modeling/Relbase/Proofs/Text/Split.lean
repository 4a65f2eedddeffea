import Mathlib.Data.List.Basic
import Relbase.Text.Blank

/-!
# Splitting and trimming

`Text.splitOn` finds the pieces that were joined, and trimming takes off blanks and
nothing else.
-/

namespace Relbase.Text

/-! ## Pieces -/

theorem mem_of_mem_extendFirst {c d : Char} {piece : Text} {pieces : List Text}
    (hpiece : piece ∈ extendFirst c pieces) (hd : d ∈ piece) :
    d = c ∨ ∃ other ∈ pieces, d ∈ other := by
  cases pieces with
  | nil =>
      rw [extendFirst, List.mem_singleton] at hpiece
      exact .inl (by simpa [hpiece] using hd)
  | cons first others =>
      rcases List.mem_cons.1 hpiece with rfl | hpiece
      · rcases List.mem_cons.1 hd with rfl | hd
        · exact .inl rfl
        · exact .inr ⟨first, List.mem_cons_self, hd⟩
      · exact .inr ⟨piece, List.mem_cons_of_mem _ hpiece, hd⟩

theorem splitOn_eq_singleton {separator : Char} {text : Text} (h : separator ∉ text) :
    splitOn separator text = [text] := by
  induction text with
  | nil => rfl
  | cons c rest ih =>
      simp only [List.mem_cons, not_or] at h
      rw [splitOn, if_neg (Ne.symm h.1), ih h.2]
      rfl

theorem splitOn_append_separator (separator : Char) (front rest : Text) :
    splitOn separator (front ++ separator :: rest) =
      splitOn separator front ++ splitOn separator rest := by
  induction front with
  | nil => simp [splitOn]
  | cons c front ih =>
      rw [List.cons_append, splitOn, splitOn, ih]
      split
      · rfl
      · cases hpieces : splitOn separator front with
        | nil => exact absurd hpieces (splitOn_ne_nil separator front)
        | cons piece pieces => rfl

theorem splitOn_append_cons {separator : Char} {text : Text} (h : separator ∉ text)
    (rest : Text) :
    splitOn separator (text ++ separator :: rest) = text :: splitOn separator rest := by
  rw [splitOn_append_separator, splitOn_eq_singleton h, List.singleton_append]

theorem splitOn_append {separator : Char} {text : Text} (h : separator ∉ text)
    {rest first : Text} {others : List Text} (hrest : splitOn separator rest = first :: others) :
    splitOn separator (text ++ rest) = (text ++ first) :: others := by
  induction text with
  | nil => exact hrest
  | cons c text ih =>
      simp only [List.mem_cons, not_or] at h
      rw [List.cons_append, splitOn, if_neg (Ne.symm h.1), ih h.2]
      rfl

theorem length_splitOn (separator : Char) (text : Text) :
    (splitOn separator text).length = text.count separator + 1 := by
  induction text with
  | nil => rfl
  | cons c rest ih =>
      rw [splitOn]
      split
      · rename_i hc
        rw [hc, List.length_cons, ih, List.count_cons_self]
      · rename_i hc
        rw [List.count_cons_of_ne hc, ← ih]
        cases hpieces : splitOn separator rest with
        | nil => exact absurd hpieces (splitOn_ne_nil separator rest)
        | cons piece pieces => rfl

theorem not_mem_of_mem_splitOn {separator : Char} {text piece : Text}
    (h : piece ∈ splitOn separator text) : separator ∉ piece := by
  induction text generalizing piece with
  | nil =>
      simp only [splitOn, List.mem_singleton] at h
      simp [h]
  | cons c rest ih =>
      rw [splitOn] at h
      split at h
      · rcases List.mem_cons.1 h with rfl | h
        · exact List.not_mem_nil
        · exact ih h
      · rename_i hc
        intro hseparator
        rcases mem_of_mem_extendFirst h hseparator with heq | ⟨other, hother, hseparator⟩
        · exact hc heq.symm
        · exact ih hother hseparator

theorem mem_of_mem_splitOn {separator c : Char} {text piece : Text}
    (h : piece ∈ splitOn separator text) (hc : c ∈ piece) : c ∈ text := by
  induction text generalizing piece with
  | nil =>
      rw [splitOn, List.mem_singleton] at h
      exact h ▸ hc
  | cons d rest ih =>
      rw [splitOn] at h
      split at h
      · rcases List.mem_cons.1 h with rfl | h
        · cases hc
        · exact List.mem_cons_of_mem _ (ih h hc)
      · rcases mem_of_mem_extendFirst h hc with rfl | ⟨other, hother, hc⟩
        · exact List.mem_cons_self
        · exact List.mem_cons_of_mem _ (ih hother hc)

theorem splitOn_join {separator : Char} {pieces : List Text} (hne : pieces ≠ [])
    (h : ∀ piece ∈ pieces, separator ∉ piece) :
    splitOn separator (join [separator] pieces) = pieces := by
  induction pieces with
  | nil => exact absurd rfl hne
  | cons piece rest ih =>
      cases rest with
      | nil => exact splitOn_eq_singleton (h piece List.mem_cons_self)
      | cons next later =>
          have hrest := ih (by simp) fun other hother => h other (List.mem_cons_of_mem _ hother)
          rw [join, List.append_assoc, List.singleton_append,
            splitOn_append_cons (h piece List.mem_cons_self), hrest]
          simp

/-! ## Trimming -/

theorem trimStart_append {gap rest : Text} (hgap : gap.all isBlank)
    (hrest : ∀ c, rest.head? = some c → isBlank c = false) : trimStart (gap ++ rest) = rest := by
  rw [trimStart, List.dropWhile_append_of_pos (by simpa using hgap)]
  cases rest with
  | nil => rfl
  | cons c later => simp [hrest c rfl]

theorem trimEnd_append {text gap : Text} (hgap : gap.all isBlank)
    (htext : ∀ c, text.getLast? = some c → isBlank c = false) : trimEnd (text ++ gap) = text := by
  have h : trimStart (gap.reverse ++ text.reverse) = text.reverse :=
    trimStart_append (by simpa using hgap) (by simpa using htext)
  rw [trimStart] at h
  rw [trimEnd, List.reverse_append, h, List.reverse_reverse]

theorem trimStart_append_cons {c : Char} (hc : isBlank c = false) (front rest : Text) :
    trimStart (front ++ c :: rest) = trimStart front ++ c :: rest := by
  rw [trimStart, trimStart, List.dropWhile_append]
  split
  · rename_i hnil
    rw [List.isEmpty_iff.1 hnil, List.dropWhile_cons_of_neg (by simp [hc])]
    rfl
  · rfl

theorem trimEnd_append_cons {c : Char} (hc : isBlank c = false) (front rest : Text) :
    trimEnd (front ++ c :: rest) = front ++ c :: trimEnd rest := by
  have h := trimStart_append_cons hc rest.reverse front.reverse
  simp only [trimStart] at h
  simp [trimEnd, h]

theorem count_trimStart {c : Char} (hc : isBlank c = false) (text : Text) :
    (trimStart text).count c = text.count c := by
  have hblank : (text.takeWhile isBlank).count c = 0 :=
    List.count_eq_zero.2 fun hmem => by
      have hc' := List.all_eq_true.1 List.all_takeWhile c hmem
      rw [hc] at hc'
      cases hc'
  have hcut := congrArg (List.count c) (List.takeWhile_append_dropWhile (p := isBlank) (l := text))
  rw [List.count_append, hblank, Nat.zero_add] at hcut
  exact hcut

theorem trimStart_eq_self {text : Text} (h : ∀ c, text.head? = some c → isBlank c = false) :
    trimStart text = text :=
  @trimStart_append [] text rfl h

theorem trimEnd_eq_self {text : Text} (h : ∀ c, text.getLast? = some c → isBlank c = false) :
    trimEnd text = text := by
  simpa using @trimEnd_append text [] rfl h

theorem isBlank_of_head?_trimStart {text : Text} {c : Char}
    (h : (trimStart text).head? = some c) : isBlank c = false := by
  rw [trimStart] at h
  have hnot := List.head?_dropWhile_not isBlank text
  rw [h] at hnot
  simpa using hnot

theorem isBlank_of_getLast?_trimEnd {text : Text} {c : Char}
    (h : (trimEnd text).getLast? = some c) : isBlank c = false := by
  rw [trimEnd, List.getLast?_reverse] at h
  exact @isBlank_of_head?_trimStart text.reverse c h

theorem head?_trimEnd {text : Text} {c : Char} (h : (trimEnd text).head? = some c) :
    text.head? = some c := by
  have hsuffix : (text.reverse.dropWhile isBlank) <:+ text.reverse := List.dropWhile_suffix isBlank
  rw [trimEnd, List.head?_reverse] at h
  obtain ⟨front, hfront⟩ := hsuffix
  have := congrArg List.getLast? hfront
  rw [List.getLast?_append, h, List.getLast?_reverse] at this
  simpa using this.symm

theorem trim_eq_self_iff {text : Text} :
    text.trim = text ↔
      (∀ c, text.head? = some c → isBlank c = false) ∧
        ∀ c, text.getLast? = some c → isBlank c = false := by
  constructor
  · intro h
    rw [← h]
    exact ⟨fun c hc => isBlank_of_head?_trimStart (head?_trimEnd hc),
      fun c hc => isBlank_of_getLast?_trimEnd hc⟩
  · rintro ⟨hhead, hlast⟩
    rw [trim, trimStart_eq_self hhead, trimEnd_eq_self hlast]

@[simp] theorem trim_trim (text : Text) : text.trim.trim = text.trim :=
  trim_eq_self_iff.2 ⟨fun _ hc => isBlank_of_head?_trimStart (head?_trimEnd hc),
    fun _ hc => isBlank_of_getLast?_trimEnd hc⟩

theorem trim_sublist (text : Text) : text.trim.Sublist text := by
  refine .trans ?_ (List.dropWhile_sublist isBlank)
  have h := (List.dropWhile_sublist isBlank (l := (trimStart text).reverse)).reverse
  simpa [trim, trimEnd, trimStart] using h

theorem trim_eq_self {text : Text} (h : ∀ c ∈ text, isBlank c = false) : text.trim = text :=
  trim_eq_self_iff.2 ⟨fun c hc => h c (List.mem_of_mem_head? hc),
    fun c hc => h c (List.mem_of_mem_getLast? hc)⟩

end Relbase.Text
