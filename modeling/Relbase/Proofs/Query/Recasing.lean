import Relbase.Proofs.Query.RoundTrip
import Relbase.Proofs.Query.Substitution

/-!
# Queries in another case

Taking the ASCII letters of a query in lower case changes no boundary of a token and no
kind, because only letters are changed and they are what stays inside words.  So two
queries that differ in the case of ASCII letters only have tokens of the same kinds.
-/

namespace Relbase

/-! ## Characters -/

theorem apply_toLower {α : Type} {f : Char → α}
    (h : ∀ c : Char, c.isAlphanum = true → f c.toLower = f c) (c : Char) : f c.toLower = f c := by
  cases hc : c.isAlphanum with
  | true => exact h c hc
  | false => rw [toLower_eq_self hc]

theorem isBlank_toLower (c : Char) : Text.isBlank c.toLower = Text.isBlank c :=
  apply_toLower (fun c hc => by
    rw [isBlank_of_isAlphanum hc, isBlank_of_isAlphanum (isAlphanum_toLower hc)]) c

theorem isSymbol_toLower (c : Char) : Token.isSymbol c.toLower = Token.isSymbol c :=
  apply_toLower (fun c hc => by
    rw [isSymbol_of_isAlphanum hc, isSymbol_of_isAlphanum (isAlphanum_toLower hc)]) c

theorem toLower_eq_iff {c d : Char} (hd : d.isAlphanum = false) : c.toLower = d ↔ c = d := by
  cases hc : c.isAlphanum with
  | true =>
      exact iff_of_false (ne_of_isAlphanum (isAlphanum_toLower hc) hd) (ne_of_isAlphanum hc hd)
  | false => rw [toLower_eq_self hc]

/-! ## Texts -/

namespace Text

def foldCase (text : Text) : Text :=
  text.map Char.toLower

@[simp] theorem foldCase_nil : foldCase [] = [] :=
  rfl

@[simp] theorem foldCase_cons (c : Char) (rest : Text) :
    foldCase (c :: rest) = c.toLower :: foldCase rest :=
  rfl

theorem dropWhile_foldCase {test : Char → Bool} (h : ∀ c, test c.toLower = test c) (text : Text) :
    text.foldCase.dropWhile test = foldCase (text.dropWhile test) := by
  rw [foldCase, List.dropWhile_map, funext h (f := test ∘ Char.toLower)]
  rfl

theorem takeWhile_foldCase {test : Char → Bool} (h : ∀ c, test c.toLower = test c) (text : Text) :
    text.foldCase.takeWhile test = foldCase (text.takeWhile test) := by
  rw [foldCase, List.takeWhile_map, funext h (f := test ∘ Char.toLower)]
  rfl

theorem all_foldCase {test : Char → Bool} (h : ∀ c, test c.toLower = test c) (text : Text) :
    text.foldCase.all test = text.all test := by
  rw [foldCase, List.all_map, funext h (f := test ∘ Char.toLower)]

theorem isEmpty_foldCase (text : Text) : text.foldCase.isEmpty = text.isEmpty :=
  List.isEmpty_map

theorem trim_foldCase (text : Text) : text.foldCase.trim = foldCase text.trim := by
  have hstart : trimStart text.foldCase = foldCase (trimStart text) :=
    dropWhile_foldCase isBlank_toLower text
  have hreverse : (foldCase (trimStart text)).reverse = foldCase (trimStart text).reverse :=
    List.map_reverse.symm
  rw [trim, hstart, trimEnd, hreverse, dropWhile_foldCase isBlank_toLower, foldCase,
    ← List.map_reverse]
  rfl

theorem extendFirst_map_foldCase (c : Char) (pieces : List Text) :
    extendFirst c.toLower (pieces.map foldCase) = (extendFirst c pieces).map foldCase := by
  cases pieces <;> rfl

theorem splitOn_foldCase {separator : Char} (h : separator.isAlphanum = false) (text : Text) :
    splitOn separator text.foldCase = (splitOn separator text).map foldCase := by
  induction text with
  | nil => rfl
  | cons c rest ih =>
      rw [foldCase_cons, splitOn, splitOn, ih]
      by_cases hc : c = separator
      · rw [if_pos ((toLower_eq_iff h).2 hc), if_pos hc]
        rfl
      · rw [if_neg fun heq => hc ((toLower_eq_iff h).1 heq), if_neg hc, extendFirst_map_foldCase]

end Text

/-! ## Tokens -/

namespace Token

theorem endsWord_foldCase (text : Text) : endsWord text.foldCase = endsWord text := by
  fun_cases endsWord text with
  | case1 => rfl
  | case2 rest => rfl
  | case3 c rest hmark =>
      rw [Text.foldCase_cons, endsWord, isBlank_toLower, isSymbol_toLower]
      intro later hc hrest
      cases rest with
      | nil => cases hrest
      | cons d rest =>
          rw [Text.foldCase_cons, List.cons.injEq, toLower_eq_iff (by decide)] at hrest
          exact hmark rest ((toLower_eq_iff (by decide)).1 hc) (by rw [hrest.1])

theorem joinsEquals_toLower (c : Char) : joinsEquals c.toLower = joinsEquals c :=
  apply_toLower (fun c hc => by
    have hnone : ∀ {c : Char}, c.isAlphanum = true → joinsEquals c = false := fun hc =>
      of_alphanum (P := fun c => joinsEquals c = false) (by decide +kernel) hc
    rw [hnone hc, hnone (isAlphanum_toLower hc)]) c

theorem splitOutside_foldCase_cons {c : Char} {rest : Text}
    (h : joinsEquals c = true → rest.head? ≠ some '=')
    (ih : splitOutside rest.foldCase = (splitOutside rest).map Text.foldCase) :
    splitOutside (Text.foldCase (c :: rest)) = (splitOutside (c :: rest)).map Text.foldCase := by
  have hfold : joinsEquals c.toLower = true → rest.foldCase.head? ≠ some '=' := by
    intro hc
    have hrest := h (joinsEquals_toLower c ▸ hc)
    cases rest with
    | nil => exact nofun
    | cons d rest =>
        simp only [Text.foldCase_cons, List.head?_cons, ne_eq, Option.some.injEq] at hrest ⊢
        rwa [toLower_eq_iff (by decide)]
  rw [Text.foldCase_cons, splitOutside_cons hfold, splitOutside_cons h, isSymbol_toLower,
    isBlank_toLower, endsWord_foldCase, ih, Text.extendFirst_map_foldCase]
  split
  · rfl
  · split
    · rfl
    · split <;> rfl

theorem splitOutside_foldCase (text : Text) :
    splitOutside text.foldCase = (splitOutside text).map Text.foldCase := by
  -- Two characters are one symbol where the second is `=`, so the induction is on the length.
  induction hlength : text.length using Nat.strongRecOn generalizing text with
  | ind n ih =>
      subst hlength
      cases text with
      | nil => rfl
      | cons c rest =>
          have hrest := ih rest.length (by simp) rest rfl
          by_cases hpair : joinsEquals c = true ∧ rest.head? = some '='
          · obtain ⟨hc, hhead⟩ := hpair
            obtain ⟨later, rfl⟩ : ∃ later, rest = '=' :: later := by
              cases rest with
              | nil => cases hhead
              | cons d later =>
                  cases hhead
                  exact ⟨later, rfl⟩
            have hlater := ih later.length (by simp only [List.length_cons]; omega) later rfl
            simp only [joinsEquals, Bool.or_eq_true, beq_iff_eq] at hc
            rcases hc with ((rfl | rfl) | rfl) | rfl
            · exact congrArg (['=', '='] :: ·) hlater
            · exact congrArg (['!', '='] :: ·) hlater
            · exact congrArg (['<', '='] :: ·) hlater
            · exact congrArg (['>', '='] :: ·) hlater
          · exact splitOutside_foldCase_cons (fun hc hhead => hpair ⟨hc, hhead⟩) hrest

theorem splitPieces_map_foldCase (pieces : List Text) :
    splitPieces (pieces.map Text.foldCase) = (splitPieces pieces).map Text.foldCase := by
  fun_induction splitPieces pieces with
  | case1 => rfl
  | case2 outside => exact splitOutside_foldCase outside
  | case3 outside unclosed =>
      simp only [List.map_cons, List.map_nil, splitPieces, List.map_append]
      rw [splitOutside_foldCase]
      rfl
  | case4 outside inside rest hrest ih =>
      rw [List.map_cons, List.map_cons, splitPieces, ih, splitOutside_foldCase]
      · simp [Text.foldCase]
      · simpa using hrest

theorem splitRaw_foldCase (text : Text) :
    splitRaw text.foldCase = (splitRaw text).map Text.foldCase := by
  rw [splitRaw, Text.trim_foldCase, Text.splitOn_foldCase (by decide), splitPieces_map_foldCase]
  rfl

end Token

/-! ## Kinds -/

theorem isDigit_toLower_all (c : Char) : Text.isDigit c.toLower = Text.isDigit c :=
  apply_toLower (fun _ hc => isDigit_toLower hc) c

theorem capital_toLower_all (c : Char) : TokenKind.capital c.toLower = TokenKind.capital c :=
  apply_toLower (fun _ hc => capital_toLower hc) c

theorem isAlphanum_toLower_all (c : Char) : c.toLower.isAlphanum = c.isAlphanum :=
  apply_toLower (f := Char.isAlphanum) (fun _ hc => by rw [hc, isAlphanum_toLower hc]) c

namespace Text

theorem splitSign_foldCase (text : Text) :
    Numeral.splitSign text.foldCase =
      ((Numeral.splitSign text).1, foldCase (Numeral.splitSign text).2) := by
  fun_cases Numeral.splitSign text with
  | case1 rest => rfl
  | case2 rest => rfl
  | case3 text hplus hminus =>
      cases text with
      | nil => rfl
      | cons c rest =>
          rw [foldCase_cons, Numeral.splitSign]
          · intro later hlater
            rw [List.cons.injEq, toLower_eq_iff (by decide)] at hlater
            exact hplus rest (by rw [hlater.1])
          · intro later hlater
            rw [List.cons.injEq, toLower_eq_iff (by decide)] at hlater
            exact hminus rest (by rw [hlater.1])

theorem isIntegerNumeral_foldCase (text : Text) :
    text.foldCase.isIntegerNumeral = text.isIntegerNumeral := by
  simp only [isIntegerNumeral, splitSign_foldCase, isEmpty_foldCase,
    all_foldCase isDigit_toLower_all]

theorem isDecimalNumeral_foldCase (text : Text) :
    text.foldCase.isDecimalNumeral = text.isDecimalNumeral := by
  simp only [isDecimalNumeral, splitSign_foldCase, Numeral.splitDigits, isEmpty_foldCase,
    takeWhile_foldCase isDigit_toLower_all, dropWhile_foldCase isDigit_toLower_all]
  congr 1
  generalize (Numeral.splitSign text).2.dropWhile isDigit = rest
  cases rest with
  | nil => rfl
  | cons c rest =>
      by_cases hc : c = '.'
      · subst hc
        simp only [foldCase_cons, show Char.toLower '.' = '.' from rfl, isEmpty_foldCase,
          all_foldCase isDigit_toLower_all]
      · simp [hc, toLower_eq_iff (show Char.isAlphanum '.' = false by decide)]

end Text

namespace TokenKind

theorem isQuoted_foldCase (text : Text) : isQuoted text.foldCase = isQuoted text := by
  have hquote : ∀ c : Char, (c.toLower == '\x27') = (c == '\x27') := fun c => by
    rw [Bool.eq_iff_iff, beq_iff_eq, beq_iff_eq, toLower_eq_iff (by decide)]
  rw [isQuoted, isQuoted, Text.foldCase, List.length_map, List.head?_map, List.getLast?_map]
  cases text.head? <;> cases text.getLast? <;> simp [hquote]

/-- The kind of a raw token does not depend on the case of its ASCII letters. -/
theorem classify_foldCase (text : Text) : classify text.foldCase = classify text := by
  have hcapital : text.foldCase.map capital = text.map capital := by
    rw [Text.foldCase, List.map_map]
    exact List.map_congr_left fun c _ => capital_toLower_all c
  rw [classify, classify, hcapital, Text.isIntegerNumeral_foldCase, Text.isDecimalNumeral_foldCase,
    isQuoted_foldCase, Text.isEmpty_foldCase, Text.all_foldCase isAlphanum_toLower_all]

end TokenKind

/-! ## Recased queries -/

/-- The names that a command brings in as they are spelled: a table with its attributes, or
an attribute. -/
def Command.definedNames : Command → List Text
  | .createTable _ attributes displayName => displayName :: attributes
  | .addAttribute _ name => [name]
  | _ => []

def definedNames (query : Text) : List Text :=
  match Command.ofText query with
  | .ok command => command.definedNames
  | .error _ => []

theorem definedNames_of_ok {query : Text} {command : Command}
    (h : Command.ofText query = .ok command) : definedNames query = command.definedNames := by
  rw [definedNames, h]

def Token.isLiteral (token : Token) : Bool :=
  token.kind ∈ literalKinds

/-- Letters of a query are in another case, but none in a literal and none in a name that the
query defines. -/
structure IsRecasing (query twin : Text) : Prop where
  letters : twin.foldCase = query.foldCase
  literals : (Token.scan twin).filter Token.isLiteral = (Token.scan query).filter Token.isLiteral
  defined : definedNames twin = definedNames query

namespace Token

def foldCase (token : Token) : Token :=
  if token.isLiteral then token else ⟨token.kind, token.text.foldCase⟩

theorem foldCase_ofRaw (raw : Text) :
    ((ofRaw raw).kind, (ofRaw raw).text.foldCase) =
      (TokenKind.classify raw.foldCase, raw.foldCase) := by
  rw [TokenKind.classify_foldCase]
  rfl

/-- Kinds and letters of the tokens follow from the letters of the query. -/
theorem scan_eq_up_to_case {query twin : Text} (h : twin.foldCase = query.foldCase) :
    ((scan twin).map fun token => (token.kind, token.text.foldCase)) =
      (scan query).map fun token => (token.kind, token.text.foldCase) := by
  have hraw : (splitRaw twin).map Text.foldCase = (splitRaw query).map Text.foldCase := by
    rw [← splitRaw_foldCase, ← splitRaw_foldCase, h]
  have hkinds : ∀ raws : List Text,
      ((raws.map ofRaw).map fun token => (token.kind, token.text.foldCase)) =
        (raws.map Text.foldCase).map fun raw => (TokenKind.classify raw, raw) := by
    intro raws
    rw [List.map_map, List.map_map]
    exact List.map_congr_left fun raw _ => foldCase_ofRaw raw
  rw [scan, scan, List.map_append, List.map_append, hkinds, hkinds, hraw]

theorem map_foldCase_eq {tokens twins : List Token}
    (hletters : (twins.map fun token => (token.kind, token.text.foldCase)) =
      tokens.map fun token => (token.kind, token.text.foldCase))
    (hliterals : twins.filter isLiteral = tokens.filter isLiteral) :
    twins.map foldCase = tokens.map foldCase := by
  induction tokens generalizing twins with
  | nil => rw [List.map_eq_nil_iff.1 hletters]
  | cons token tokens ih =>
      cases twins with
      | nil => cases hletters
      | cons twin twins =>
          simp only [List.map_cons, List.cons.injEq, Prod.mk.injEq] at hletters
          obtain ⟨⟨hkind, htext⟩, hrest⟩ := hletters
          have hsame : twin.isLiteral = token.isLiteral := by rw [isLiteral, isLiteral, hkind]
          rw [List.map_cons, List.map_cons]
          cases hliteral : token.isLiteral with
          | true =>
              rw [List.filter_cons_of_pos (hsame.trans hliteral),
                List.filter_cons_of_pos hliteral, List.cons.injEq] at hliterals
              rw [hliterals.1, ih hrest hliterals.2]
          | false =>
              rw [List.filter_cons_of_neg (by simp [hsame, hliteral]),
                List.filter_cons_of_neg (by simp [hliteral])] at hliterals
              rw [ih hrest hliterals, foldCase, foldCase, hsame, hliteral, hkind, htext]
              rfl

theorem twins_foldCase (query : Text) :
    AreTwins Text.lower id (scan query) ((scan query).map foldCase) := by
  refine List.forall₂_map_right_iff.2 (List.forall₂_same.2 fun token htoken => ?_)
  have hscanned := Spelling.scanned_of_mem_scan htoken
  have hname : token.kind = .identifier → token.foldCase.text = token.text.lower := by
    intro hkind
    have hidentifier := hscanned.identifier hkind
    rw [foldCase, isLiteral, hkind, if_neg (by decide), Text.lower_of_alphanum hidentifier.alphanum]
    rfl
  refine ⟨?_, hname, fun hkind => ?_, fun hliteral => ?_⟩
  · rw [foldCase]
    split <;> rfl
  · rw [hname hkind, Text.lower_lower]
  · have hkept : token.isLiteral = true := decide_eq_true (Grammar.mem_literalKinds.2 hliteral)
    rw [foldCase, if_pos hkept]
    rfl

end Token

namespace Command

def withDefinedNames : List Text → Command → Command
  | displayName :: attributes, .createTable table _ _ => .createTable table attributes displayName
  | [name], .addAttribute table _ => .addAttribute table name
  | _, command => command

def folded (command : Command) : Command :=
  (command.mapTexts Text.lower id).withDefinedNames command.definedNames

end Command

/-- Recased queries are the same command up to the case of names, or errors of one class. -/
theorem IsRecasing.corresponds {query twin : Text} (h : IsRecasing query twin) :
    Corresponds (fun command image => image.folded = command.folded) (Command.ofText query)
      (Command.ofText twin) := by
  -- Both lists of tokens have one list of twins: the tokens in lower case.
  have hquery := Command.ofTokens_twins (Token.twins_foldCase query)
  have htwin := Command.ofTokens_twins (Token.twins_foldCase twin)
  rw [Token.map_foldCase_eq (Token.scan_eq_up_to_case h.letters) h.literals] at htwin
  rw [← Command.ofText] at hquery htwin
  refine (hquery.symm.common htwin.symm).mono ?_
  rintro command other hfirst hsecond ⟨_, _, himage, himage'⟩
  have hdefined := h.defined
  rw [definedNames_of_ok hfirst, definedNames_of_ok hsecond] at hdefined
  rw [Command.folded, Command.folded, ← himage, ← himage', hdefined]

end Relbase
