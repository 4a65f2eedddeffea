import Relbase.Number.Binary64
import Relbase.Text.Blank
import Relbase.Text.Digit

/-!
# Numerals

Which texts are numbers, and which numbers they are.  Digits may come from any
script.  Three forms nest: integers, decimals with digits on both sides of the
point, and general numerals with either side missing and with an exponent.  The
reading of counters is separate, since it allows blanks around the digits and
underscores between them.
-/

namespace Relbase

/-- `significand * 10 ^ power` with a sign. -/
structure Numeral where
  negative : Bool
  significand : Nat
  power : Int
  deriving DecidableEq, Repr

namespace Numeral

def splitSign : Text → Bool × Text
  | '+' :: rest => (false, rest)
  | '-' :: rest => (true, rest)
  | text => (false, text)

def splitDigits (text : Text) : Text × Text :=
  (text.takeWhile Text.isDigit, text.dropWhile Text.isDigit)

def splitFraction : Text → Text × Text
  | '.' :: rest => splitDigits rest
  | text => ([], text)

def exponent? : Text → Option Int
  | [] => some 0
  | mark :: rest =>
      if mark = 'e' || mark = 'E' then
        let (negative, digits) := splitSign rest
        if !digits.isEmpty && digits.all Text.isDigit then
          let value : Int := Text.digitsValue digits
          some (if negative then -value else value)
        else none
      else none

/-- A sign, digits with a point somewhere or nowhere, and an exponent; sign and
exponent may be missing, but some digit must stand before the exponent. -/
def read? (text : Text) : Option Numeral :=
  let (negative, unsigned) := splitSign text
  let (whole, afterWhole) := splitDigits unsigned
  let (fraction, afterFraction) := splitFraction afterWhole
  if whole.isEmpty && fraction.isEmpty then none
  else
    (exponent? afterFraction).map fun exponent =>
      ⟨negative, Text.digitsValue (whole ++ fraction), exponent - fraction.length⟩

def toBinary64 (numeral : Numeral) : Binary64 :=
  ⟨numeral.negative, Binary64.decimalMagnitude numeral.significand numeral.power⟩

end Numeral

namespace Text

def isIntegerNumeral (text : Text) : Bool :=
  let digits := (Numeral.splitSign text).2
  !digits.isEmpty && digits.all isDigit

def isDecimalNumeral (text : Text) : Bool :=
  let (whole, rest) := Numeral.splitDigits (Numeral.splitSign text).2
  !whole.isEmpty &&
    match rest with
    | [] => true
    | '.' :: fraction => !fraction.isEmpty && fraction.all isDigit
    | _ => false

/-- Blanks that may surround a counter; the information separators may not. -/
def isPadding (c : Char) : Bool :=
  isBlank c && !(0x1C ≤ c.toNat && c.toNat ≤ 0x1F)

def groupedDigits? : Text → Option Text
  | [] => none
  | [c] => if isDigit c then some [c] else none
  | c :: '_' :: rest => if isDigit c then (groupedDigits? rest).map (c :: ·) else none
  | c :: rest => if isDigit c then (groupedDigits? rest).map (c :: ·) else none

/-- No integer with more digits is read or written. -/
def digitLimit : Nat := 4300

def isOversized (value : Int) : Bool :=
  Nat.pow 10 digitLimit ≤ value.natAbs

inductive IntegerFault where
  | malformed
  | oversized (digits : Nat)
  deriving DecidableEq, Repr

/-- The integer that a counter's text denotes.  Digits that are too many are a
fault of their own, whatever follows them. -/
def readInteger (text : Text) : Except IntegerFault Int :=
  let (negative, unsigned) := Numeral.splitSign (text.dropWhile isPadding)
  let inGroups (c : Char) : Bool := isDigit c || c = '_'
  match groupedDigits? (unsigned.takeWhile inGroups) with
  | none => .error .malformed
  | some digits =>
      if digitLimit < digits.length then .error (.oversized digits.length)
      else if (unsigned.dropWhile inGroups).all isPadding then
        let value : Int := digitsValue digits
        .ok (if negative then -value else value)
      else .error .malformed

end Text

end Relbase
