import Relbase.Json.Basic
import Relbase.Number.Numeral

/-!
# Reading JSON

`Json.parse` reads a whole text as one value.  Besides the standard's values it
reads `NaN`, `Infinity` and `-Infinity`.  A text that is not JSON gives a
`Problem`: its cause, and the place at which the text stops making sense.  An
integer with more digits than integers are read with is a problem, too, and so is
an escape for a surrogate that is not one of a pair, since no `Text` has it.

Readers of a part return the rest of the text; that it is shorter is what makes
the recursion end.
-/

namespace Relbase.Json

inductive Cause where
  | expectingValue
  | oversizedInteger
  | expectingName
  | expectingColon
  | expectingComma
  | unterminatedText
  | controlCharacter
  | badEscape
  | badCodeEscape
  | loneSurrogate
  | byteOrderMark
  | extraData
  deriving DecidableEq, Repr

/-- The number of characters before a fault, and its line and column, counted
from one. -/
structure Problem where
  cause : Cause
  line : Nat
  column : Nat
  offset : Nat
  deriving DecidableEq, Repr

structure Stop where
  cause : Cause
  remaining : Nat
  deriving DecidableEq, Repr

/-! ## Blanks and texts -/

def isSpace (c : Char) : Bool :=
  c == ' ' || c == '\t' || c == '\n' || c == '\r'

def skipSpace (text : Text) : Text :=
  text.dropWhile isSpace

theorem length_skipSpace (text : Text) : (skipSpace text).length ≤ text.length :=
  (List.dropWhile_suffix isSpace).length_le

theorem length_of_skipSpace_eq {text rest : Text} {c : Char} (h : skipSpace text = c :: rest) :
    rest.length < text.length := by
  have := length_skipSpace text
  rw [h] at this
  exact this

def hexValue? (c : Char) : Option Nat :=
  let code := c.toNat
  if 0x30 ≤ code && code ≤ 0x39 then some (code - 0x30)
  else if 0x41 ≤ code && code ≤ 0x46 then some (code - 0x37)
  else if 0x61 ≤ code && code ≤ 0x66 then some (code - 0x57)
  else none

def codeUnit? (a b c d : Char) : Option Nat := do
  let a ← hexValue? a
  let b ← hexValue? b
  let c ← hexValue? c
  let d ← hexValue? d
  pure (((a * 16 + b) * 16 + c) * 16 + d)

def escaped? (c : Char) : Option Char :=
  if c = '"' || c = '\\' || c = '/' then some c
  else if c = 'b' then some '\x08'
  else if c = 'f' then some '\x0c'
  else if c = 'n' then some '\n'
  else if c = 'r' then some '\r'
  else if c = 't' then some '\t'
  else none

def withCode (code : Nat) : Except Stop (List Nat × Text) → Except Stop (List Nat × Text)
  | .error stop => .error stop
  | .ok (codes, rest) => .ok (code :: codes, rest)

theorem withCode_eq_ok {code : Nat} {result : Except Stop (List Nat × Text)} {codes : List Nat}
    {rest : Text} (h : withCode code result = .ok (codes, rest)) :
    ∃ tail, result = .ok (tail, rest) ∧ codes = code :: tail := by
  cases result with
  | error stop => cases h
  | ok found =>
      cases h
      exact ⟨found.1, rfl, rfl⟩

/-- The codes of a text up to its closing quote, and what follows the quote;
`opening` characters are left at the opening quote. -/
def readCodes (opening : Nat) : Text → Except Stop (List Nat × Text)
  | [] => .error ⟨.unterminatedText, opening⟩
  | ['\\'] => .error ⟨.unterminatedText, opening⟩
  | '\\' :: 'u' :: a :: b :: c :: d :: next :: rest =>
      match codeUnit? a b c d with
      | none => .error ⟨.badCodeEscape, rest.length + 6⟩
      | some unit => withCode unit (readCodes opening (next :: rest))
  | '\\' :: 'u' :: rest => .error ⟨.badCodeEscape, rest.length + 1⟩
  | '\\' :: c :: rest =>
      match escaped? c with
      | none => .error ⟨.badEscape, rest.length + 2⟩
      | some c => withCode c.toNat (readCodes opening rest)
  | c :: rest =>
      if c = '"' then .ok ([], rest)
      else if c.toNat < 0x20 then .error ⟨.controlCharacter, rest.length + 1⟩
      else withCode c.toNat (readCodes opening rest)

theorem length_readCodes {opening : Nat} {text : Text} {codes : List Nat} {rest : Text}
    (h : readCodes opening text = .ok (codes, rest)) : rest.length < text.length := by
  fun_induction readCodes opening text generalizing codes with
  | case1 => cases h
  | case2 => cases h
  | case3 => cases h
  | case4 a b c d next later unit _ ih =>
      obtain ⟨tail, htail, _⟩ := withCode_eq_ok h
      have := ih htail
      simp only [List.length_cons] at this ⊢
      omega
  | case5 => cases h
  | case6 => cases h
  | case7 c later _ _ c' _ ih =>
      obtain ⟨tail, htail, _⟩ := withCode_eq_ok h
      have := ih htail
      simp only [List.length_cons]
      omega
  | case8 =>
      cases h
      simp
  | case9 => cases h
  | case10 c later _ _ _ _ _ _ ih =>
      obtain ⟨tail, htail, _⟩ := withCode_eq_ok h
      have := ih htail
      simp only [List.length_cons]
      omega

/-- Characters from codes: two surrogates in the right order make one character.
There is no text with a lone one in it. -/
def joinSurrogates : List Nat → Option Text
  | [] => some []
  | high :: low :: rest =>
      if 0xD800 ≤ high && high < 0xDC00 && 0xDC00 ≤ low && low < 0xE000 then
        (joinSurrogates rest).map
          (Char.ofNat (0x10000 + (high - 0xD800) * 0x400 + (low - 0xDC00)) :: ·)
      else (ofCode? high).bind fun c => (joinSurrogates (low :: rest)).map (c :: ·)
  | [code] => (ofCode? code).map ([·])
where
  ofCode? (code : Nat) : Option Char :=
    if 0xD800 ≤ code && code < 0xE000 then none else some (Char.ofNat code)

def readText (text : Text) : Except Stop (Text × { rest : Text // rest.length < text.length }) :=
  match h : readCodes (text.length + 1) text with
  | .error stop => .error stop
  | .ok (codes, rest) =>
      match joinSurrogates codes with
      | none => .error ⟨.loneSurrogate, text.length + 1⟩
      | some value => .ok (value, ⟨rest, length_readCodes h⟩)

/-! ## Numbers -/

def splitDigits (text : Text) : Text × Text :=
  (text.takeWhile Char.isDigit, text.dropWhile Char.isDigit)

def splitFraction : Text → Text × Text
  | '.' :: rest =>
      let (digits, later) := splitDigits rest
      if digits.isEmpty then ([], '.' :: rest) else ('.' :: digits, later)
  | rest => ([], rest)

def splitExponent : Text → Text × Text
  | [] => ([], [])
  | mark :: rest =>
      if mark = 'e' || mark = 'E' then
        let (sign, unsigned) := match rest with
          | '+' :: later => (['+'], later)
          | '-' :: later => (['-'], later)
          | later => ([], later)
        let (digits, later) := splitDigits unsigned
        if digits.isEmpty then ([], mark :: rest) else (mark :: sign ++ digits, later)
      else ([], mark :: rest)

/-- The number at the start of a text, and how many characters it takes; no
integer part but zero begins with the digit zero. -/
def readNumber (text : Text) : Except Cause (Json × Nat) :=
  let (negative, unsigned) := match text with
    | '-' :: rest => (true, rest)
    | rest => (false, rest)
  let (digits, afterDigits) := splitDigits unsigned
  match digits with
  | [] => .error .expectingValue
  | first :: more =>
      let whole := if first = '0' then [first] else digits
      let afterWhole := if first = '0' then more ++ afterDigits else afterDigits
      let (fraction, afterFraction) := splitFraction afterWhole
      let (exponent, _) := splitExponent afterFraction
      let length := whole.length + fraction.length + exponent.length + (if negative then 1 else 0)
      if fraction.isEmpty && exponent.isEmpty then
        let value : Int := Text.digitsValue whole
        if Text.digitLimit < whole.length then .error .oversizedInteger
        else .ok (.integer (if negative then -value else value), length)
      else
        match Numeral.read? (whole ++ fraction ++ exponent) with
        | some numeral => .ok (.number { numeral.toBinary64 with negative }, length)
        | none => .error .expectingValue

/-! ## Values -/

def constants : List (Text × Json) :=
  [("null".toList, .null), ("true".toList, .boolean true), ("false".toList, .boolean false),
    ("NaN".toList, .number .notANumber), ("Infinity".toList, .number (.infinity false)),
    ("-Infinity".toList, .number (.infinity true))]

def readScalar (text : Text) : Except Cause (Json × Nat) :=
  match constants.find? fun constant => constant.1.isPrefixOf text with
  | some constant => .ok (constant.2, constant.1.length)
  | none => readNumber text

mutual

def readValue (text : Text) : Except Stop (Json × { rest : Text // rest.length < text.length }) :=
  match text with
  | [] => .error ⟨.expectingValue, 0⟩
  | '"' :: rest =>
      match readText rest with
      | .error stop => .error stop
      | .ok (value, ⟨later, h⟩) => .ok (.text value, ⟨later, Nat.lt_succ_of_lt h⟩)
  | '[' :: rest =>
      match h : skipSpace rest with
      | ']' :: later =>
          .ok (.list [], ⟨later, Nat.lt_succ_of_lt (length_of_skipSpace_eq h)⟩)
      | items =>
          have hitems : items.length < ('[' :: rest).length :=
            Nat.lt_succ_of_le (h ▸ length_skipSpace rest)
          match readItems items with
          | .error stop => .error stop
          | .ok (values, ⟨later, hlater⟩) =>
              .ok (.list values, ⟨later, Nat.lt_trans hlater hitems⟩)
  | '\x7b' :: rest =>
      match h : skipSpace rest with
      | '\x7d' :: later =>
          .ok (.object [], ⟨later, Nat.lt_succ_of_lt (length_of_skipSpace_eq h)⟩)
      | members =>
          have hmembers : members.length < ('\x7b' :: rest).length :=
            Nat.lt_succ_of_le (h ▸ length_skipSpace rest)
          match readMembers members with
          | .error stop => .error stop
          | .ok (entries, ⟨later, hlater⟩) =>
              .ok (.object (Assoc.ofList entries), ⟨later, Nat.lt_trans hlater hmembers⟩)
  | c :: rest =>
      match readScalar (c :: rest) with
      | .error cause => .error ⟨cause, rest.length + 1⟩
      | .ok (value, length) =>
          .ok (value, ⟨rest.drop (length - 1), by
            rw [List.length_drop]
            exact Nat.lt_succ_of_le (Nat.sub_le _ _)⟩)
termination_by 2 * text.length
decreasing_by all_goals omega

def readItems (text : Text) :
    Except Stop (List Json × { rest : Text // rest.length < text.length }) :=
  match readValue text with
  | .error stop => .error stop
  | .ok (item, ⟨rest, hrest⟩) =>
      match h : skipSpace rest with
      | ']' :: later =>
          .ok ([item], ⟨later, Nat.lt_trans (length_of_skipSpace_eq h) hrest⟩)
      | ',' :: later =>
          have hlater : (skipSpace later).length < text.length :=
            Nat.lt_of_le_of_lt (length_skipSpace later)
              (Nat.lt_trans (length_of_skipSpace_eq h) hrest)
          match readItems (skipSpace later) with
          | .error stop => .error stop
          | .ok (items, ⟨last, hlast⟩) => .ok (item :: items, ⟨last, Nat.lt_trans hlast hlater⟩)
      | other => .error ⟨.expectingComma, other.length⟩
termination_by 2 * text.length + 1
decreasing_by all_goals omega

def readMembers (text : Text) :
    Except Stop (List (Text × Json) × { rest : Text // rest.length < text.length }) :=
  match text with
  | '"' :: body =>
      match readText body with
      | .error stop => .error stop
      | .ok (name, ⟨afterName, hname⟩) =>
          match hcolon : skipSpace afterName with
          | ':' :: afterColon =>
              have hvalue : (skipSpace afterColon).length < ('"' :: body).length :=
                Nat.lt_succ_of_le (Nat.le_trans (length_skipSpace afterColon)
                  (Nat.le_of_lt (Nat.lt_trans (length_of_skipSpace_eq hcolon) hname)))
              match readValue (skipSpace afterColon) with
              | .error stop => .error stop
              | .ok (value, ⟨afterValue, hafterValue⟩) =>
                  have hrest : afterValue.length < ('"' :: body).length :=
                    Nat.lt_trans hafterValue hvalue
                  match hnext : skipSpace afterValue with
                  | '\x7d' :: later =>
                      .ok ([(name, value)],
                        ⟨later, Nat.lt_trans (length_of_skipSpace_eq hnext) hrest⟩)
                  | ',' :: later =>
                      have hlater : (skipSpace later).length < ('"' :: body).length :=
                        Nat.lt_of_le_of_lt (length_skipSpace later)
                          (Nat.lt_trans (length_of_skipSpace_eq hnext) hrest)
                      match readMembers (skipSpace later) with
                      | .error stop => .error stop
                      | .ok (members, ⟨last, hlast⟩) =>
                          .ok ((name, value) :: members, ⟨last, Nat.lt_trans hlast hlater⟩)
                  | other => .error ⟨.expectingComma, other.length⟩
          | other => .error ⟨.expectingColon, other.length⟩
  | other => .error ⟨.expectingName, other.length⟩
termination_by 2 * text.length + 1
decreasing_by all_goals omega

end

/-! ## Whole texts -/

def Stop.toProblem (stop : Stop) (text : Text) : Problem :=
  let offset := text.length - stop.remaining
  let before := text.take offset
  let column := (before.reverse.takeWhile (· ≠ '\n')).length + 1
  ⟨stop.cause, before.count '\n' + 1, column, offset⟩

def parse (text : Text) : Except Problem Json :=
  if text.head? = some '\uFEFF' then .error ⟨.byteOrderMark, 1, 1, 0⟩
  else
    match readValue (skipSpace text) with
    | .error stop => .error (stop.toProblem text)
    | .ok (value, rest) =>
        match skipSpace rest.val with
        | [] => .ok value
        | extra => .error (Stop.toProblem ⟨.extraData, extra.length⟩ text)

/-! ## Messages -/

def Cause.message : Cause → Text
  | .expectingValue => "Expecting value".toList
  | .oversizedInteger => "Integer with too many digits".toList
  | .expectingName => "Expecting property name enclosed in double quotes".toList
  | .expectingColon => "Expecting ':' delimiter".toList
  | .expectingComma => "Expecting ',' delimiter".toList
  | .unterminatedText => "Unterminated string starting at".toList
  | .controlCharacter => "Invalid control character at".toList
  | .badEscape => "Invalid \\escape".toList
  | .badCodeEscape => "Invalid \\uXXXX escape".toList
  | .loneSurrogate => "Lone surrogate in a string starting at".toList
  | .byteOrderMark => "Unexpected UTF-8 BOM (decode using utf-8-sig)".toList
  | .extraData => "Extra data".toList

def Problem.message (problem : Problem) : Text :=
  problem.cause.message ++ ": line ".toList ++ Text.ofNat problem.line ++ " column ".toList ++
    Text.ofNat problem.column ++ " (char ".toList ++ Text.ofNat problem.offset ++ ")".toList

end Relbase.Json
