import Mathlib.Data.List.Basic
import Relbase.Proofs.Text.Split
import Relbase.Query.Token

/-!
# Scanning laid-out pieces

A query is laid out from pieces: words, marks and quoted texts, with white space
between them where two words meet and anywhere else.  Scanning a laid-out query finds
the pieces again.
-/

namespace Relbase.Token

/-! ## Text outside quotes -/

def beforeQuote (text : Text) : Text :=
  text.takeWhile (· ≠ '\x27')

def splitQuoted (text : Text) : List Text :=
  splitPieces (Text.splitOn '\x27' text)

def splitInside : List Text → List Text
  | [] => []
  | [unclosed] => ['\x27' :: unclosed]
  | inside :: rest => ('\x27' :: inside ++ ['\x27']) :: splitPieces rest

theorem splitPieces_cons (outside : Text) (others : List Text) :
    splitPieces (outside :: others) = splitOutside outside ++ splitInside others := by
  match others with
  | [] => simp [splitPieces, splitInside]
  | [unclosed] => simp [splitPieces, splitInside]
  | inside :: next :: rest => simp [splitPieces, splitInside]

theorem splitOn_quote (text : Text) :
    ∃ others, Text.splitOn '\x27' text = beforeQuote text :: others := by
  induction text with
  | nil => exact ⟨[], rfl⟩
  | cons c rest ih =>
      obtain ⟨others, hothers⟩ := ih
      by_cases hc : c = '\x27'
      · exact ⟨Text.splitOn '\x27' rest, by simp [Text.splitOn, beforeQuote, hc]⟩
      · refine ⟨others, ?_⟩
        rw [Text.splitOn, if_neg hc, hothers]
        simp [Text.extendFirst, beforeQuote, hc]

theorem splitQuoted_append {front rest : Text} {found : List Text} (hfront : '\x27' ∉ front)
    (h : splitOutside (front ++ beforeQuote rest) = found ++ splitOutside (beforeQuote rest)) :
    splitQuoted (front ++ rest) = found ++ splitQuoted rest := by
  obtain ⟨others, hothers⟩ := splitOn_quote rest
  rw [splitQuoted, Text.splitOn_append hfront hothers, splitPieces_cons, h, List.append_assoc,
    ← splitPieces_cons, splitQuoted, hothers]

theorem splitQuoted_quoted {value : Text} (hvalue : '\x27' ∉ value) (rest : Text) :
    splitQuoted ('\x27' :: value ++ '\x27' :: rest) =
      ('\x27' :: value ++ ['\x27']) :: splitQuoted rest := by
  obtain ⟨others, hothers⟩ := splitOn_quote rest
  have hpieces : Text.splitOn '\x27' ('\x27' :: value ++ '\x27' :: rest) =
      [] :: value :: Text.splitOn '\x27' rest := by
    rw [List.cons_append, Text.splitOn, if_pos rfl, Text.splitOn_append_cons hvalue]
  rw [splitQuoted, hpieces, splitQuoted, hothers]
  simp [splitPieces, splitOutside]

def joinsEquals (c : Char) : Bool :=
  c == '=' || c == '!' || c == '<' || c == '>'

theorem splitOutside_cons {c : Char} {rest : Text}
    (h : joinsEquals c = true → rest.head? ≠ some '=') :
    splitOutside (c :: rest) =
      if isSymbol c then [c] :: splitOutside rest
      else if Text.isBlank c then splitOutside rest
      else if endsWord rest then [c] :: splitOutside rest
      else Text.extendFirst c (splitOutside rest) := by
  rw [splitOutside]
  all_goals
    rintro later rfl rfl
    exact h rfl rfl

theorem endsWord_cons {c : Char} {rest : Text} (h : c = '!' → rest.head? ≠ some '=') :
    endsWord (c :: rest) = (Text.isBlank c || isSymbol c) := by
  rw [endsWord]
  rintro later rfl rfl
  exact h rfl rfl

theorem isBlank_of_isSymbol {c : Char} (h : isSymbol c = true) : Text.isBlank c = false := by
  simp only [isSymbol, Bool.or_eq_true, beq_iff_eq] at h
  rcases h with (((((rfl | rfl) | rfl) | rfl) | rfl) | rfl) | rfl <;> decide

theorem eq_mark_of_joinsEquals {c : Char} (hjoins : joinsEquals c = true)
    (hsymbol : isSymbol c = false) : c = '!' := by
  simp only [joinsEquals, Bool.or_eq_true, beq_iff_eq] at hjoins
  rcases hjoins with ((rfl | rfl) | rfl) | rfl
  case inl.inl.inr => rfl
  all_goals cases hsymbol

theorem splitOutside_blanks {gap : Text} (hgap : gap.all Text.isBlank) (rest : Text) :
    splitOutside (gap ++ rest) = splitOutside rest := by
  induction gap with
  | nil => rfl
  | cons c gap ih =>
      simp only [List.all_cons, Bool.and_eq_true] at hgap
      have hjoins : joinsEquals c = false := by
        by_contra hc
        simp only [joinsEquals, Bool.not_eq_false, Bool.or_eq_true, beq_iff_eq] at hc
        rcases hc with ((rfl | rfl) | rfl) | rfl <;> exact absurd hgap.1 (by decide)
      have hsymbol : isSymbol c = false := by
        by_contra hc
        simp [isBlank_of_isSymbol (by simpa using hc)] at hgap
      rw [List.cons_append, splitOutside_cons (by simp [hjoins]), hsymbol, hgap.1, ih hgap.2]
      rfl

/-- A text of one word: some characters, none of them a blank or a symbol. -/
structure IsBare (word : Text) : Prop where
  nonempty : word ≠ []
  plain : ∀ c ∈ word, Text.isBlank c = false ∧ isSymbol c = false

theorem head?_ne_equals {c : Char} {word rest : Text} (hword : ∀ d ∈ word, isSymbol d = false)
    (hmark : (c :: word).getLast? = some '!' → rest.head? ≠ some '=') (hc : c = '!') :
    (word ++ rest).head? ≠ some '=' := by
  cases word with
  | nil => exact hmark (by rw [hc]; rfl)
  | cons d word =>
      intro hd
      obtain rfl : d = '=' := by simpa using hd
      exact absurd (hword '=' List.mem_cons_self) (by decide)

theorem splitOutside_bare {word rest : Text} (hword : IsBare word) (hrest : endsWord rest = true)
    (hmark : word.getLast? = some '!' → rest.head? ≠ some '=') :
    splitOutside (word ++ rest) = word :: splitOutside rest := by
  obtain ⟨hne, hplain⟩ := hword
  induction word with
  | nil => exact absurd rfl hne
  | cons c word ih =>
      obtain ⟨hblank, hsymbol⟩ := hplain c List.mem_cons_self
      have hlater : ∀ d ∈ word, Text.isBlank d = false ∧ isSymbol d = false := fun d hd =>
        hplain d (List.mem_cons_of_mem _ hd)
      have hjoins : joinsEquals c = true → (word ++ rest).head? ≠ some '=' := fun hjoins =>
        head?_ne_equals (fun d hd => (hlater d hd).2) hmark (eq_mark_of_joinsEquals hjoins hsymbol)
      rw [List.cons_append, splitOutside_cons hjoins, hsymbol, hblank]
      cases word with
      | nil => simp [hrest]
      | cons d word =>
          obtain ⟨hdBlank, hdSymbol⟩ := hlater d List.mem_cons_self
          have hlast : (d :: word).getLast? = some '!' → rest.head? ≠ some '=' := by
            simpa [List.getLast?_cons_cons] using hmark
          have hdMark : d = '!' → (word ++ rest).head? ≠ some '=' :=
            head?_ne_equals (fun e he => (hlater e (List.mem_cons_of_mem _ he)).2) hlast
          have hends : endsWord (d :: word ++ rest) = false := by
            rw [List.cons_append, endsWord_cons hdMark, hdBlank, hdSymbol]
            rfl
          rw [hends, ih hlast (by simp) hlater]
          rfl

def isWordChar (c : Char) : Bool :=
  !Text.isBlank c && !isSymbol c && c != '!' && c != '\x27'

theorem isWordChar_iff {c : Char} :
    isWordChar c = true ↔
      Text.isBlank c = false ∧ isSymbol c = false ∧ c ≠ '!' ∧ c ≠ '\x27' := by
  simp [isWordChar, and_assoc]

theorem splitOutside_word {word rest : Text} (hne : word ≠ []) (hword : word.all isWordChar)
    (hrest : endsWord rest = true) : splitOutside (word ++ rest) = word :: splitOutside rest := by
  have hchars : ∀ c ∈ word, isWordChar c = true := List.all_eq_true.1 hword
  have hbare : IsBare word :=
    ⟨hne, fun c hc => ⟨(isWordChar_iff.1 (hchars c hc)).1, (isWordChar_iff.1 (hchars c hc)).2.1⟩⟩
  refine splitOutside_bare hbare hrest fun hlast => ?_
  exact absurd (hchars _ (List.mem_of_getLast? hlast)) (by decide)

/-! ## Pieces -/

/-- What a query is laid out from. -/
inductive Piece where
  | word (text : Text)
  | mark (symbol : Text)
  | quoted (value : Text)
  deriving DecidableEq, Repr

namespace Piece

def text : Piece → Text
  | .word text => text
  | .mark symbol => symbol
  | .quoted value => '\x27' :: value ++ ['\x27']

def isWord : Piece → Bool
  | .word _ => true
  | _ => false

end Piece

def closedMarks : List Text :=
  [['('], [')'], [','], [';']]

def literalMarks : List Text :=
  [['=', '='], ['!', '='], ['<', '='], ['>', '='], ['<'], ['>'], ['=']]

/-- Pieces in which a mark that could grow stands in front of a quoted text. -/
inductive Settled : List Piece → Prop
  | nil : Settled []
  | word {text : Text} {rest : List Piece} (hne : text ≠ []) (htext : text.all isWordChar)
      (hrest : Settled rest) : Settled (.word text :: rest)
  | mark {symbol : Text} {rest : List Piece} (hsymbol : symbol ∈ closedMarks)
      (hrest : Settled rest) : Settled (.mark symbol :: rest)
  | quoted {value : Text} {rest : List Piece} (hvalue : '\x27' ∉ value)
      (hrest : Settled rest) : Settled (.quoted value :: rest)
  | literal {symbol value : Text} {rest : List Piece} (hsymbol : symbol ∈ literalMarks)
      (hvalue : '\x27' ∉ value) (hrest : Settled rest) :
      Settled (.mark symbol :: .quoted value :: rest)

theorem Settled.append {first second : List Piece} (hfirst : Settled first)
    (hsecond : Settled second) : Settled (first ++ second) := by
  induction hfirst with
  | nil => exact hsecond
  | word hne htext _ ih => exact .word hne htext ih
  | mark hsymbol _ ih => exact .mark hsymbol ih
  | quoted hvalue _ ih => exact .quoted hvalue ih
  | literal hsymbol hvalue _ ih => exact .literal hsymbol hvalue ih

/-- A text holds the pieces one after another with white space around them, which must
not be missing between two words. -/
def Laid (afterWord : Bool) : List Piece → Text → Prop
  | [], text => text.all Text.isBlank = true
  | piece :: rest, text =>
      ∃ gap later, text = gap ++ piece.text ++ later ∧ gap.all Text.isBlank = true ∧
        (afterWord = true → piece.isWord = true → gap ≠ []) ∧ Laid piece.isWord rest later

/-! ## Finding the pieces -/

theorem splitQuoted_blanks {gap : Text} (hgap : gap.all Text.isBlank) (rest : Text) :
    splitQuoted (gap ++ rest) = splitQuoted rest := by
  have hquote : '\x27' ∉ gap := fun h => absurd (List.all_eq_true.1 hgap _ h) (by decide)
  have hfound : splitOutside (gap ++ beforeQuote rest) = [] ++ splitOutside (beforeQuote rest) :=
    splitOutside_blanks hgap _
  exact splitQuoted_append hquote hfound

theorem Laid.endsWord {pieces : List Piece} {later : Text} (hpieces : Settled pieces)
    (h : Laid true pieces later) : Token.endsWord (beforeQuote later) = true := by
  have hblank {c : Char} (hc : Text.isBlank c = true) (rest : Text) :
      Token.endsWord (beforeQuote (c :: rest)) = true := by
    have hquote : c ≠ '\x27' := by
      rintro rfl
      exact absurd hc (by decide)
    have hmark : c ≠ '!' := by
      rintro rfl
      exact absurd hc (by decide)
    simp [beforeQuote, hquote, endsWord_cons (fun h => absurd h hmark), hc]
  have hgap {gap rest : Text} (hgap : gap.all Text.isBlank = true) (hne : gap ≠ []) :
      Token.endsWord (beforeQuote (gap ++ rest)) = true := by
    cases gap with
    | nil => exact absurd rfl hne
    | cons c gap =>
        simp only [List.all_cons, Bool.and_eq_true] at hgap
        exact hblank hgap.1 _
  cases hpieces with
  | nil =>
      cases later with
      | nil => rfl
      | cons c rest =>
          simp only [Laid, List.all_cons, Bool.and_eq_true] at h
          exact hblank h.1 rest
  | word hne htext hrest =>
      obtain ⟨gap, rest, rfl, hall, hspace, _⟩ := h
      rw [List.append_assoc]
      exact hgap hall (hspace rfl rfl)
  | mark hsymbol hrest =>
      obtain ⟨gap, rest, rfl, hall, _, _⟩ := h
      by_cases hne : gap = []
      · subst hne
        simp only [closedMarks, List.mem_cons, List.not_mem_nil, or_false] at hsymbol
        rcases hsymbol with rfl | rfl | rfl | rfl <;> rfl
      · rw [List.append_assoc]
        exact hgap hall hne
  | quoted hvalue hrest =>
      obtain ⟨gap, rest, rfl, hall, _, _⟩ := h
      by_cases hne : gap = []
      · subst hne
        rfl
      · rw [List.append_assoc]
        exact hgap hall hne
  | literal hsymbol hvalue hrest =>
      obtain ⟨gap, rest, rfl, hall, _, _⟩ := h
      by_cases hne : gap = []
      · subst hne
        simp only [literalMarks, List.mem_cons, List.not_mem_nil, or_false] at hsymbol
        rcases hsymbol with rfl | rfl | rfl | rfl | rfl | rfl | rfl <;> rfl
      · rw [List.append_assoc]
        exact hgap hall hne

theorem splitOutside_closedMark {symbol : Text} (hsymbol : symbol ∈ closedMarks) (rest : Text) :
    splitOutside (symbol ++ rest) = symbol :: splitOutside rest := by
  simp only [closedMarks, List.mem_cons, List.not_mem_nil, or_false] at hsymbol
  rcases hsymbol with rfl | rfl | rfl | rfl
  all_goals
    rw [List.singleton_append, splitOutside_cons fun h => absurd h (by decide)]
    rfl

/-- Only an equals sign changes the mark in front of it. -/
theorem splitOutside_literalMark {symbol rest : Text} (hsymbol : symbol ∈ literalMarks)
    (hrest : rest.head? ≠ some '=') :
    splitOutside (symbol ++ rest) = symbol :: splitOutside rest := by
  simp only [literalMarks, List.mem_cons, List.not_mem_nil, or_false] at hsymbol
  rcases hsymbol with rfl | rfl | rfl | rfl | rfl | rfl | rfl
  case inl | inr.inl | inr.inr.inl | inr.inr.inr.inl => simp [splitOutside]
  all_goals
    rw [List.singleton_append, splitOutside_cons fun _ => hrest]
    rfl

theorem Laid.splitQuoted {pieces : List Piece} (hpieces : Settled pieces) {afterWord : Bool}
    {text : Text} (h : Laid afterWord pieces text) :
    Token.splitQuoted text = pieces.map Piece.text := by
  induction hpieces generalizing afterWord text with
  | nil =>
      have hscan := splitQuoted_blanks h []
      rw [List.append_nil] at hscan
      rw [hscan]
      rfl
  | word hne htext hrest ih =>
      rename_i word pieces
      obtain ⟨gap, rest, rfl, hgap, _, hlaid⟩ := h
      have hquote : '\x27' ∉ word := fun hmem =>
        (isWordChar_iff.1 (List.all_eq_true.1 htext _ hmem)).2.2.2 rfl
      have hfound : Token.splitQuoted (word ++ rest) = [word] ++ Token.splitQuoted rest :=
        splitQuoted_append hquote (splitOutside_word hne htext (hlaid.endsWord hrest))
      rw [List.append_assoc, splitQuoted_blanks hgap]
      simp only [Piece.text, List.map_cons]
      rw [hfound, ih hlaid]
      rfl
  | mark hsymbol hrest ih =>
      rename_i symbol pieces
      obtain ⟨gap, rest, rfl, hgap, _, hlaid⟩ := h
      have hquote : '\x27' ∉ symbol := by
        simp only [closedMarks, List.mem_cons, List.not_mem_nil, or_false] at hsymbol
        rcases hsymbol with rfl | rfl | rfl | rfl <;> decide
      have hfound : Token.splitQuoted (symbol ++ rest) = [symbol] ++ Token.splitQuoted rest :=
        splitQuoted_append hquote (splitOutside_closedMark hsymbol _)
      rw [List.append_assoc, splitQuoted_blanks hgap]
      simp only [Piece.text, List.map_cons]
      rw [hfound, ih hlaid]
      rfl
  | quoted hvalue hrest ih =>
      rename_i value pieces
      obtain ⟨gap, rest, rfl, hgap, _, hlaid⟩ := h
      have htext : gap ++ (Piece.quoted value).text ++ rest =
          gap ++ ('\x27' :: value ++ '\x27' :: rest) := by simp [Piece.text]
      rw [htext, splitQuoted_blanks hgap, splitQuoted_quoted hvalue, ih hlaid]
      rfl
  | literal hsymbol hvalue hrest ih =>
      rename_i symbol value pieces
      obtain ⟨gap, _, rfl, hgap, _, space, rest, rfl, hspace, _, hlaid⟩ := h
      have hquote : '\x27' ∉ symbol ++ space := by
        intro h
        rcases List.mem_append.1 h with h | h
        · simp only [literalMarks, List.mem_cons, List.not_mem_nil, or_false] at hsymbol
          rcases hsymbol with rfl | rfl | rfl | rfl | rfl | rfl | rfl <;> exact absurd h (by decide)
        · exact absurd (List.all_eq_true.1 hspace _ h) (by decide)
      have hfound : Token.splitQuoted ((symbol ++ space) ++ ('\x27' :: value ++ '\x27' :: rest)) =
          [symbol] ++ Token.splitQuoted ('\x27' :: value ++ '\x27' :: rest) := by
        have hhead : space.head? ≠ some '=' := fun h =>
          absurd (List.all_eq_true.1 hspace _ (List.mem_of_mem_head? h)) (by decide)
        have hnone : splitOutside space = [] := by
          simpa [splitOutside] using splitOutside_blanks hspace []
        refine splitQuoted_append hquote ?_
        simpa [beforeQuote, splitOutside, hnone] using splitOutside_literalMark hsymbol hhead
      have htext : gap ++ (Piece.mark symbol).text ++
            (space ++ (Piece.quoted value).text ++ rest) =
          gap ++ ((symbol ++ space) ++ ('\x27' :: value ++ '\x27' :: rest)) := by
        simp [Piece.text]
      rw [htext, splitQuoted_blanks hgap, hfound, splitQuoted_quoted hvalue, ih hlaid]
      rfl

/-! ## Whole queries -/

theorem trim_append_cons {front gap : Text} {c : Char} (hc : Text.isBlank c = false)
    (hgap : gap.all Text.isBlank) :
    (front ++ c :: gap).trim = Text.trimStart front ++ [c] := by
  have hend : Text.trimEnd gap = [] := @Text.trimEnd_append [] gap hgap nofun
  rw [Text.trim, Text.trimStart_append_cons hc, Text.trimEnd_append_cons hc, hend]

theorem splitQuoted_trimStart (front rest : Text) :
    splitQuoted (Text.trimStart front ++ rest) = splitQuoted (front ++ rest) := by
  have hcut := List.takeWhile_append_dropWhile (p := Text.isBlank) (l := front)
  have hblank : (front.takeWhile Text.isBlank).all Text.isBlank = true := List.all_takeWhile
  rw [← splitQuoted_blanks hblank (Text.trimStart front ++ rest), ← List.append_assoc,
    Text.trimStart, hcut]

theorem Laid.cut {pieces : List Piece} {symbol : Char} {afterWord : Bool} {text : Text}
    (h : Laid afterWord (pieces ++ [.mark [symbol]]) text) :
    ∃ front gap, text = front ++ symbol :: gap ∧ gap.all Text.isBlank = true ∧
      Laid afterWord (pieces ++ [.mark [symbol]]) (front ++ [symbol]) := by
  induction pieces generalizing afterWord text with
  | nil =>
      obtain ⟨gap, later, rfl, hgap, _, hlater⟩ := h
      exact ⟨gap, later, by simp [Piece.text], hlater, gap, [], by simp [Piece.text], hgap,
        fun _ hword => (by cases hword), rfl⟩
  | cons piece pieces ih =>
      obtain ⟨gap, later, rfl, hgap, hspace, hlater⟩ := h
      obtain ⟨front, last, rfl, hlast, hcut⟩ := ih hlater
      exact ⟨gap ++ piece.text ++ front, last, by simp, hlast, gap, front ++ [symbol], by simp,
        hgap, hspace, hcut⟩

theorem scan_of_laid {pieces : List Piece} {text : Text}
    (hpieces : Settled (pieces ++ [.mark [';']])) (h : Laid false (pieces ++ [.mark [';']]) text) :
    scan text = (pieces ++ [Piece.mark [';']]).map (ofRaw ∘ Piece.text) ++ [endOfInput] := by
  obtain ⟨front, gap, rfl, hgap, hcut⟩ := h.cut
  have hraw : splitRaw (front ++ ';' :: gap) =
      (pieces ++ [Piece.mark [';']]).map Piece.text := by
    rw [← hcut.splitQuoted hpieces, ← splitQuoted_trimStart,
      ← trim_append_cons (by decide) hgap]
    rfl
  rw [scan, hraw, List.map_map]

/-! ## Raw tokens of any text -/

inductive IsRaw : Text → Prop
  | bare {text : Text} (hquote : '\x27' ∉ text) (hblank : ∀ c ∈ text, Text.isBlank c = false) :
      IsRaw text
  | quoted {value : Text} (hvalue : '\x27' ∉ value) : IsRaw ('\x27' :: value ++ ['\x27'])
  | unclosed {value : Text} (hvalue : '\x27' ∉ value) : IsRaw ('\x27' :: value)

theorem of_mem_splitOutside {text raw : Text} {c : Char} (hraw : raw ∈ splitOutside text)
    (hc : c ∈ raw) : c ∈ text ∧ Text.isBlank c = false := by
  have later {first : Char} {rest : Text} (h : c ∈ rest ∧ Text.isBlank c = false) :
      c ∈ first :: rest ∧ Text.isBlank c = false :=
    ⟨List.mem_cons_of_mem _ h.1, h.2⟩
  have here {first : Char} (rest : Text) (hfirst : Text.isBlank first = false) (h : c = first) :
      c ∈ first :: rest ∧ Text.isBlank c = false := by
    rw [h]
    exact ⟨List.mem_cons_self, hfirst⟩
  fun_induction splitOutside text generalizing raw with
  | case1 => cases hraw
  | case2 rest ih | case3 rest ih | case4 rest ih | case5 rest ih =>
      rcases List.mem_cons.1 hraw with rfl | hraw
      · simp only [List.mem_cons, List.not_mem_nil, or_false] at hc
        rcases hc with hc | hc
        · exact here _ (by decide) hc
        · exact later (here _ (by decide) hc)
      · exact later (later (ih hraw hc))
  | case6 first rest _ _ _ _ hsymbol ih =>
      rcases List.mem_cons.1 hraw with rfl | hraw
      · exact here _ (isBlank_of_isSymbol hsymbol) (List.mem_singleton.1 hc)
      · exact later (ih hraw hc)
  | case7 first rest _ _ _ _ _ _ ih => exact later (ih hraw hc)
  | case8 first rest _ _ _ _ _ hblank _ ih =>
      rcases List.mem_cons.1 hraw with rfl | hraw
      · exact here _ (by simpa using hblank) (List.mem_singleton.1 hc)
      · exact later (ih hraw hc)
  | case9 first rest _ _ _ _ _ hblank _ ih =>
      rcases Text.mem_of_mem_extendFirst hraw hc with hfirst | ⟨other, hother, hmem⟩
      · exact here _ (by simpa using hblank) hfirst
      · exact later (ih hother hmem)

theorem isRaw_of_mem_splitOutside {text raw : Text} (htext : '\x27' ∉ text)
    (h : raw ∈ splitOutside text) : IsRaw raw :=
  .bare (fun hmem => htext (of_mem_splitOutside h hmem).1) fun _ hc => (of_mem_splitOutside h hc).2

theorem isRaw_of_mem_splitPieces {pieces : List Text} (hpieces : ∀ piece ∈ pieces, '\x27' ∉ piece)
    {raw : Text} (h : raw ∈ splitPieces pieces) : IsRaw raw := by
  fun_induction splitPieces pieces with
  | case1 => cases h
  | case2 outside => exact isRaw_of_mem_splitOutside (hpieces _ (by simp)) h
  | case3 outside unclosed =>
      rcases List.mem_append.1 h with h | h
      · exact isRaw_of_mem_splitOutside (hpieces _ (by simp)) h
      · rw [List.mem_singleton] at h
        exact h ▸ .unclosed (hpieces _ (by simp))
  | case4 outside inside rest _ ih =>
      rcases List.mem_append.1 h with h | h
      · exact isRaw_of_mem_splitOutside (hpieces _ (by simp)) h
      · rcases List.mem_cons.1 h with rfl | h
        · exact .quoted (hpieces _ (by simp))
        · exact ih (fun piece hpiece => hpieces piece (by simp [hpiece])) h

/-- Every token of a scanned text but the last stands for a raw token. -/
theorem isRaw_of_mem_splitRaw {text raw : Text} (h : raw ∈ splitRaw text) : IsRaw raw :=
  isRaw_of_mem_splitPieces (fun _ hpiece => Text.not_mem_of_mem_splitOn hpiece) h

end Relbase.Token
