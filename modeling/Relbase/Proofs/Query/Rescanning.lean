import Relbase.Proofs.Query.RoundTrip

/-!
# Scanning what was scanned

Scanning keeps every character of a text but the blanks outside quotes, in the order of
the text.  The tokens that it finds stay apart with one blank between neighbours, so that
scanning them again finds the same tokens.
-/

namespace Relbase.Token

/-! ## Blanks outside quotes -/

def isOuterBlank (quotes : Nat) (c : Char) : Bool :=
  Text.isBlank c && quotes % 2 == 0

/-- The text without its blanks outside quotes, which are those with an even number of
quotes in front of them. -/
def withoutOuterBlanks (text : Text) : Text :=
  (text.zipIdx.filter fun entry =>
    !isOuterBlank ((text.take entry.2).count '\x27') entry.1).map Prod.fst

def keptBehind (quotes : Nat) : Text → Text
  | [] => []
  | c :: rest =>
      if isOuterBlank quotes c then keptBehind quotes rest
      else c :: keptBehind (quotes + [c].count '\x27') rest

theorem count_of_isOuterBlank {quotes : Nat} {c : Char} (h : isOuterBlank quotes c = true) :
    [c].count '\x27' = 0 := by
  refine List.count_eq_zero.2 fun hmem => ?_
  obtain rfl := List.mem_singleton.1 hmem
  simp [isOuterBlank, show Text.isBlank '\x27' = false by decide] at h

theorem map_fst_filter_zipIdx (before rest : Text) :
    ((rest.zipIdx before.length).filter fun entry =>
        !isOuterBlank (((before ++ rest).take entry.2).count '\x27') entry.1).map Prod.fst =
      keptBehind (before.count '\x27') rest := by
  induction rest generalizing before with
  | nil => rfl
  | cons c rest ih =>
      have hlater := ih (before ++ [c])
      rw [List.length_append, List.length_singleton, List.append_assoc, List.singleton_append,
        List.count_append] at hlater
      rw [List.zipIdx_cons, List.filter_cons, keptBehind]
      by_cases hc : isOuterBlank (before.count '\x27') c = true
      · rw [count_of_isOuterBlank hc, Nat.add_zero] at hlater
        simpa [hc] using hlater
      · simpa [hc] using hlater

theorem withoutOuterBlanks_eq (text : Text) : withoutOuterBlanks text = keptBehind 0 text :=
  map_fst_filter_zipIdx [] text

theorem keptBehind_append (quotes : Nat) (front rest : Text) :
    keptBehind quotes (front ++ rest) =
      keptBehind quotes front ++ keptBehind (quotes + front.count '\x27') rest := by
  induction front generalizing quotes with
  | nil => rfl
  | cons c front ih =>
      have hcount : (c :: front).count '\x27' = [c].count '\x27' + front.count '\x27' := by
        rw [← List.count_append, List.singleton_append]
      rw [List.cons_append, keptBehind, keptBehind, hcount]
      split
      · rename_i hc
        rw [ih, count_of_isOuterBlank hc, Nat.zero_add]
      · rw [ih, List.cons_append, Nat.add_assoc]

theorem keptBehind_quote (quotes : Nat) (rest : Text) :
    keptBehind quotes ('\x27' :: rest) = '\x27' :: keptBehind (quotes + 1) rest := by
  have hquote : isOuterBlank quotes '\x27' = false := by
    simp [isOuterBlank, show Text.isBlank '\x27' = false by decide]
  rw [keptBehind, hquote]
  rfl

theorem keptBehind_inside {quotes : Nat} (hquotes : quotes % 2 = 1) {text : Text}
    (htext : '\x27' ∉ text) : keptBehind quotes text = text := by
  induction text with
  | nil => rfl
  | cons c rest ih =>
      simp only [List.mem_cons, not_or] at htext
      have hc : isOuterBlank quotes c = false := by simp [isOuterBlank, hquotes]
      have hcount : [c].count '\x27' = 0 :=
        List.count_eq_zero.2 fun hmem => htext.1 (List.mem_singleton.1 hmem)
      rw [keptBehind, hc, hcount, Nat.add_zero, ih htext.2]
      rfl

theorem keptBehind_outside {quotes : Nat} (hquotes : quotes % 2 = 0) {text : Text}
    (htext : '\x27' ∉ text) : keptBehind quotes text = text.filter (!Text.isBlank ·) := by
  induction text with
  | nil => rfl
  | cons c rest ih =>
      simp only [List.mem_cons, not_or] at htext
      have hc : isOuterBlank quotes c = Text.isBlank c := by simp [isOuterBlank, hquotes]
      have hcount : [c].count '\x27' = 0 :=
        List.count_eq_zero.2 fun hmem => htext.1 (List.mem_singleton.1 hmem)
      rw [keptBehind, hc, hcount, Nat.add_zero, ih htext.2, List.filter_cons]
      cases Text.isBlank c <;> rfl

/-! ## No character is lost -/

theorem flatten_extendFirst (c : Char) (pieces : List Text) :
    (Text.extendFirst c pieces).flatten = c :: pieces.flatten := by
  cases pieces <;> rfl

theorem flatten_splitOutside (text : Text) :
    (splitOutside text).flatten = text.filter (!Text.isBlank ·) := by
  fun_induction splitOutside text with
  | case1 => rfl
  | case2 rest ih | case3 rest ih | case4 rest ih | case5 rest ih =>
      rw [List.flatten_cons, ih]
      rfl
  | case6 c rest _ _ _ _ hsymbol ih =>
      simp [ih, isBlank_of_isSymbol hsymbol]
  | case7 c rest _ _ _ _ _ hblank ih =>
      simp [ih, hblank]
  | case8 c rest _ _ _ _ _ hblank _ ih =>
      simp [ih, hblank]
  | case9 c rest _ _ _ _ _ hblank _ ih =>
      simp [flatten_extendFirst, ih, hblank]

theorem flatten_splitPieces {pieces : List Text} (hpieces : ∀ piece ∈ pieces, '\x27' ∉ piece)
    {quotes : Nat} (hquotes : quotes % 2 = 0) :
    (splitPieces pieces).flatten = keptBehind quotes (Text.join ['\x27'] pieces) := by
  fun_induction splitPieces pieces generalizing quotes with
  | case1 => rfl
  | case2 outside =>
      rw [flatten_splitOutside, Text.join, keptBehind_outside hquotes (hpieces _ (by simp))]
  | case3 outside unclosed =>
      have houtside : '\x27' ∉ outside := hpieces _ (by simp)
      have hunclosed : '\x27' ∉ unclosed := hpieces _ (by simp)
      have htext : Text.join ['\x27'] [outside, unclosed] = outside ++ '\x27' :: unclosed := by
        simp [Text.join]
      rw [htext, keptBehind_append, List.count_eq_zero.2 houtside, Nat.add_zero, keptBehind_quote,
        keptBehind_outside hquotes houtside, keptBehind_inside (by omega) hunclosed]
      simp [flatten_splitOutside]
  | case4 outside inside rest hrest ih =>
      have houtside : '\x27' ∉ outside := hpieces _ (by simp)
      have hinside : '\x27' ∉ inside := hpieces _ (by simp)
      have htext : Text.join ['\x27'] (outside :: inside :: rest) =
          outside ++ '\x27' :: (inside ++ '\x27' :: Text.join ['\x27'] rest) := by
        cases rest with
        | nil => exact absurd rfl hrest
        | cons next later => simp [Text.join]
      rw [htext, keptBehind_append, List.count_eq_zero.2 houtside, Nat.add_zero, keptBehind_quote,
        keptBehind_append, List.count_eq_zero.2 hinside, Nat.add_zero, keptBehind_quote,
        keptBehind_outside hquotes houtside, keptBehind_inside (by omega) hinside,
        ← ih (fun piece hpiece => hpieces piece (by simp [hpiece])) (by omega)]
      simp [flatten_splitOutside]

theorem flatten_splitRaw (text : Text) :
    (splitRaw text).flatten = withoutOuterBlanks text.trim := by
  rw [splitRaw, flatten_splitPieces (fun _ h => Text.not_mem_of_mem_splitOn h) (Nat.zero_mod 2),
    Text.join_splitOn, withoutOuterBlanks_eq]

theorem trim_withoutOuterBlanks_trim (text : Text) :
    (withoutOuterBlanks text.trim).trim = withoutOuterBlanks text.trim := by
  obtain ⟨hhead, hlast⟩ := Text.trim_eq_self_iff.1 (Text.trim_trim text)
  have hkept {quotes : Nat} {c : Char} (hc : Text.isBlank c = false) :
      isOuterBlank quotes c = false := by simp [isOuterBlank, hc]
  rw [withoutOuterBlanks_eq]
  refine Text.trim_eq_self_iff.2 ⟨fun c hc => ?_, fun c hc => ?_⟩
  · cases htext : text.trim with
    | nil => simp [htext, keptBehind] at hc
    | cons d rest =>
        have hd := hhead d (by rw [htext]; rfl)
        rw [htext, keptBehind, hkept hd] at hc
        exact Option.some.inj hc ▸ hd
  · rcases List.eq_nil_or_concat text.trim with htext | ⟨front, d, htext⟩
    · simp [htext, keptBehind] at hc
    · have hd := hlast d (by simp [htext])
      rw [htext, List.concat_eq_append, keptBehind_append, keptBehind, hkept hd] at hc
      simp only [Bool.false_eq_true, if_false, keptBehind, List.getLast?_append,
        List.getLast?_singleton, Option.some_or, Option.some.injEq] at hc
      exact hc ▸ hd

/-! ## Tokens that stay apart -/

theorem exists_isBare_of_endsWord {text : Text} (h : endsWord text = false) :
    ∃ word others, splitOutside text = word :: others ∧ IsBare word := by
  induction text with
  | nil => cases h
  | cons c rest ih =>
      have hmark : c = '!' → rest.head? ≠ some '=' := by
        rintro rfl hrest
        obtain ⟨later, rfl⟩ := List.head?_eq_some_iff.1 hrest
        cases h
      rw [endsWord_cons hmark, Bool.or_eq_false_iff] at h
      obtain ⟨hblank, hsymbol⟩ := h
      have hjoins : joinsEquals c = true → rest.head? ≠ some '=' := fun hjoins =>
        hmark (eq_mark_of_joinsEquals hjoins hsymbol)
      rw [splitOutside_cons hjoins, hsymbol, hblank]
      cases hrest : endsWord rest with
      | true => exact ⟨[c], splitOutside rest, rfl, by simp, by simp [hblank, hsymbol]⟩
      | false =>
          obtain ⟨word, others, hsplit, hword⟩ := ih hrest
          refine ⟨c :: word, others, by simp [hsplit, Text.extendFirst], by simp, ?_⟩
          rintro d hd
          rcases List.mem_cons.1 hd with rfl | hd
          · exact ⟨hblank, hsymbol⟩
          · exact hword.plain d hd

theorem mark_or_bare_of_mem_splitOutside {text raw : Text} (h : raw ∈ splitOutside text) :
    raw ∈ closedMarks ++ literalMarks ∨ IsBare raw := by
  fun_induction splitOutside text with
  | case1 => cases h
  | case2 rest ih | case3 rest ih | case4 rest ih | case5 rest ih =>
      rcases List.mem_cons.1 h with rfl | h
      · exact .inl (by decide)
      · exact ih h
  | case6 c rest _ _ _ _ hsymbol ih =>
      rcases List.mem_cons.1 h with rfl | h
      · simp only [isSymbol, Bool.or_eq_true, beq_iff_eq] at hsymbol
        rcases hsymbol with (((((rfl | rfl) | rfl) | rfl) | rfl) | rfl) | rfl <;>
          exact .inl (by decide)
      · exact ih h
  | case7 c rest _ _ _ _ _ _ ih => exact ih h
  | case8 c rest _ _ _ _ hsymbol hblank _ ih =>
      rcases List.mem_cons.1 h with rfl | h
      · exact .inr ⟨by simp, by simp [hblank, hsymbol]⟩
      · exact ih h
  | case9 c rest _ _ _ _ hsymbol hblank hends ih =>
      obtain ⟨word, others, hsplit, hword⟩ := exists_isBare_of_endsWord (by simpa using hends)
      rw [hsplit] at h ih
      rcases List.mem_cons.1 h with rfl | h
      · refine .inr ⟨by simp, fun d hd => ?_⟩
        rcases List.mem_cons.1 hd with rfl | hd
        · exact ⟨by simpa using hblank, by simpa using hsymbol⟩
        · exact hword.plain d hd
      · exact ih (List.mem_cons_of_mem _ h)

/-- Raw tokens of which each is found again in front of a blank; only the last of them can
be a quote that is never closed. -/
inductive Separable : List Text → Prop
  | nil : Separable []
  | unclosed {value : Text} (hvalue : '\x27' ∉ value) : Separable ['\x27' :: value]
  | bare {raw : Text} {rest : List Text} (hquote : '\x27' ∉ raw)
      (hraw : raw ∈ closedMarks ++ literalMarks ∨ IsBare raw) (hrest : Separable rest) :
      Separable (raw :: rest)
  | quoted {value : Text} {rest : List Text} (hvalue : '\x27' ∉ value)
      (hrest : Separable rest) : Separable (('\x27' :: value ++ ['\x27']) :: rest)

theorem separable_splitOutside {text : Text} (htext : '\x27' ∉ text) {later : List Text}
    (hlater : Separable later) : Separable (splitOutside text ++ later) := by
  have hmem : ∀ raw ∈ splitOutside text, '\x27' ∉ raw ∧
      (raw ∈ closedMarks ++ literalMarks ∨ IsBare raw) := fun raw hraw =>
    ⟨fun hquote => htext (of_mem_splitOutside hraw hquote).1, mark_or_bare_of_mem_splitOutside hraw⟩
  generalize splitOutside text = raws at hmem ⊢
  induction raws with
  | nil => exact hlater
  | cons raw rest ih =>
      obtain ⟨hquote, hraw⟩ := hmem raw List.mem_cons_self
      exact .bare hquote hraw (ih fun other hother => hmem other (List.mem_cons_of_mem _ hother))

theorem separable_splitPieces {pieces : List Text} (hpieces : ∀ piece ∈ pieces, '\x27' ∉ piece) :
    Separable (splitPieces pieces) := by
  fun_induction splitPieces pieces with
  | case1 => exact .nil
  | case2 outside =>
      simpa using separable_splitOutside (hpieces _ (by simp)) .nil
  | case3 outside unclosed =>
      exact separable_splitOutside (hpieces _ (by simp)) (.unclosed (hpieces _ (by simp)))
  | case4 outside inside rest _ ih =>
      have hrest := ih fun piece hpiece => hpieces piece (by simp [hpiece])
      exact separable_splitOutside (hpieces _ (by simp)) (.quoted (hpieces _ (by simp)) hrest)

theorem Separable.ne_nil {raws : List Text} (h : Separable raws) : ∀ raw ∈ raws, raw ≠ [] := by
  induction h with
  | nil => nofun
  | unclosed => simp
  | bare hquote hraw _ ih =>
      refine List.forall_mem_cons.2 ⟨?_, ih⟩
      rintro rfl
      rcases hraw with hmark | hbare
      · exact absurd hmark (by decide)
      · exact hbare.nonempty rfl
  | quoted _ _ ih => exact List.forall_mem_cons.2 ⟨by simp, ih⟩

/-! ## Scanning the tokens again -/

def OpensBlank (text : Text) : Prop :=
  ∀ c, text.head? = some c → Text.isBlank c = true

theorem OpensBlank.endsWord {text : Text} (h : OpensBlank text) :
    Token.endsWord text = true := by
  cases text with
  | nil => rfl
  | cons c rest =>
      have hc := h c rfl
      have hmark : c ≠ '!' := by
        rintro rfl
        exact absurd hc (by decide)
      rw [endsWord_cons fun heq => absurd heq hmark, hc]
      rfl

theorem OpensBlank.head?_ne {text : Text} (h : OpensBlank text) : text.head? ≠ some '=' :=
  fun heq => absurd (h _ heq) (by decide)

theorem OpensBlank.beforeQuote {text : Text} (h : OpensBlank text) :
    OpensBlank (Token.beforeQuote text) := by
  cases text with
  | nil => exact h
  | cons c rest =>
      intro d hd
      rw [Token.beforeQuote, List.takeWhile_cons] at hd
      split at hd
      · exact h d hd
      · cases hd

theorem splitQuoted_bare {raw rest : Text} (hquote : '\x27' ∉ raw)
    (hraw : raw ∈ closedMarks ++ literalMarks ∨ IsBare raw) (hrest : OpensBlank rest) :
    splitQuoted (raw ++ rest) = raw :: splitQuoted rest := by
  have hopens := hrest.beforeQuote
  change splitQuoted (raw ++ rest) = [raw] ++ splitQuoted rest
  refine splitQuoted_append hquote ?_
  rcases hraw with hmark | hbare
  · rcases List.mem_append.1 hmark with hclosed | hliteral
    · exact splitOutside_closedMark hclosed _
    · exact splitOutside_literalMark hliteral hopens.head?_ne
  · exact splitOutside_bare hbare hopens.endsWord fun _ => hopens.head?_ne

theorem exists_join_cons (raw : Text) (rest : List Text) :
    ∃ later, Text.join [' '] (raw :: rest) = raw ++ later ∧ OpensBlank later ∧
      splitQuoted later = splitQuoted (Text.join [' '] rest) := by
  cases rest with
  | nil => exact ⟨[], by simp [Text.join], nofun, rfl⟩
  | cons next others =>
      refine ⟨' ' :: Text.join [' '] (next :: others), by simp [Text.join], ?_, ?_⟩
      · intro c hc
        obtain rfl : ' ' = c := by simpa using hc
        decide
      · exact splitQuoted_blanks (show [' '].all Text.isBlank = true by decide) _

theorem Separable.splitQuoted_join {raws : List Text} (h : Separable raws) :
    splitQuoted (Text.join [' '] raws) = raws := by
  induction h with
  | nil => rfl
  | unclosed hvalue =>
      rename_i value
      have hpieces : Text.splitOn '\x27' ('\x27' :: value) = [[], value] := by
        rw [Text.splitOn, if_pos rfl, Text.splitOn_eq_singleton hvalue]
      rw [Text.join, splitQuoted, hpieces]
      rfl
  | bare hquote hraw _ ih =>
      rename_i raw rest _
      obtain ⟨later, hjoin, hopens, hlater⟩ := exists_join_cons raw rest
      rw [hjoin, splitQuoted_bare hquote hraw hopens, hlater, ih]
  | quoted hvalue _ ih =>
      rename_i value rest _
      obtain ⟨later, hjoin, hopens, hlater⟩ := exists_join_cons ('\x27' :: value ++ ['\x27']) rest
      rw [hjoin, List.append_assoc, List.singleton_append, splitQuoted_quoted hvalue, hlater, ih]

theorem head?_join (separator : Text) {pieces : List Text} (h : ∀ piece ∈ pieces, piece ≠ []) :
    (Text.join separator pieces).head? = pieces.flatten.head? := by
  cases pieces with
  | nil => rfl
  | cons piece rest =>
      obtain ⟨c, front, rfl⟩ := List.exists_cons_of_ne_nil (h piece List.mem_cons_self)
      cases rest <;> simp [Text.join]

theorem getLast?_join (separator : Text) {pieces : List Text} (h : ∀ piece ∈ pieces, piece ≠ []) :
    (Text.join separator pieces).getLast? = pieces.flatten.getLast? := by
  induction pieces with
  | nil => rfl
  | cons piece rest ih =>
      cases rest with
      | nil => simp [Text.join]
      | cons next others =>
          have hlater := ih fun other hother => h other (List.mem_cons_of_mem _ hother)
          have hsome : (next :: others).flatten ≠ [] := by
            simpa using fun hnil => absurd hnil (h next (by simp))
          obtain ⟨last, hlast⟩ := Option.isSome_iff_exists.1 (List.getLast?_isSome.2 hsome)
          have hjoin : Text.join separator (piece :: next :: others) =
              piece ++ separator ++ Text.join separator (next :: others) := rfl
          have hflatten : (piece :: next :: others).flatten = piece ++ (next :: others).flatten :=
            rfl
          simp only [hjoin, hflatten, List.getLast?_append, hlater, hlast, Option.some_or]

theorem splitRaw_join_splitRaw (text : Text) :
    splitRaw (Text.join [' '] (splitRaw text)) = splitRaw text := by
  have hseparable : Separable (splitRaw text) :=
    separable_splitPieces fun _ h => Text.not_mem_of_mem_splitOn h
  have htrim : (Text.join [' '] (splitRaw text)).trim = Text.join [' '] (splitRaw text) := by
    rw [Text.trim_eq_self_iff, head?_join _ hseparable.ne_nil, getLast?_join _ hseparable.ne_nil,
      ← Text.trim_eq_self_iff, flatten_splitRaw, trim_withoutOuterBlanks_trim]
  have hsplit := hseparable.splitQuoted_join
  rw [splitQuoted] at hsplit
  rw [splitRaw, htrim, hsplit]

def texts (tokens : List Token) : List Text :=
  (tokens.filter (·.kind != .endOfInput)).map Token.text

theorem texts_scan (text : Text) : texts (scan text) = splitRaw text := by
  have hraw : ((splitRaw text).map ofRaw).filter (·.kind != .endOfInput) =
      (splitRaw text).map ofRaw := by
    refine List.filter_eq_self.2 fun token htoken => ?_
    obtain ⟨raw, _, rfl⟩ := List.mem_map.1 htoken
    exact bne_iff_ne.2 (Spelling.classify_ne_endOfInput raw)
  rw [texts, scan, List.filter_append, hraw]
  simp [endOfInput, ofRaw, Function.comp_def]

/-- The tokens of a text hold its characters but the blanks at the ends and outside quotes,
and scanning them with single blanks between them gives the same tokens. -/
theorem scan_keeps_text (text : Text) :
    (texts (scan text)).flatten = withoutOuterBlanks text.trim ∧
      scan (Text.join [' '] (texts (scan text))) = scan text := by
  rw [texts_scan]
  refine ⟨flatten_splitRaw text, ?_⟩
  rw [scan, splitRaw_join_splitRaw, scan]

end Relbase.Token
