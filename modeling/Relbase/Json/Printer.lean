import Relbase.Json.Basic
import Relbase.Number.Numeral
import Relbase.Number.Shortest
import Relbase.Text.Quoted

/-!
# Writing JSON

`Json.render` writes a value over several lines, four spaces deeper at each
level; only control characters, quotes and backslashes of a text are escaped.  An
integer with too many digits leaves a gap.
`Json.display` is the form in which a value stands for a name inside a longer
name: a text is taken as it is.
-/

namespace Relbase

/-! ## Numbers -/

def pointedDigits (digits : Text) (places : Int) : Text :=
  if places ≤ 0 then '0' :: '.' :: List.replicate (-places).toNat '0' ++ digits
  else
    let whole := digits.take places.toNat ++ List.replicate (places.toNat - digits.length) '0'
    let fraction := digits.drop places.toNat
    whole ++ '.' :: (if fraction.isEmpty then ['0'] else fraction)

def scientificDigits (digits : Text) (exponent : Int) : Text :=
  let mantissa := match digits with
    | first :: second :: rest => first :: '.' :: second :: rest
    | short => short
  let size := Text.ofNat exponent.natAbs
  mantissa ++ 'e' :: (if exponent < 0 then '-' else '+') ::
    List.replicate (2 - size.length) '0' ++ size

/-- A finite magnitude: positional from a ten-thousandth up to below ten
quadrillions, and scientific beyond. -/
def Binary64.magnitudeText (magnitude : Nat) : Text :=
  let decimal := shortest magnitude
  let digits := Text.ofNat decimal.significand
  let places : Int := digits.length + decimal.power
  if magnitude = 0 then "0.0".toList
  else if -4 < places ∧ places ≤ 16 then pointedDigits digits places
  else scientificDigits digits (places - 1)

def Binary64.text (infinite notNumber : Text) (x : Binary64) : Text :=
  if x.isNotANumber then notNumber
  else
    (if x.negative then ['-'] else []) ++
      (if x.isInfinite then infinite else magnitudeText x.magnitude)

namespace Json

/-! ## Texts -/

def escapedChar (c : Char) : Text :=
  if c = '"' then ['\\', '"']
  else if c = '\\' then ['\\', '\\']
  else if c = '\n' then ['\\', 'n']
  else if c = '\r' then ['\\', 'r']
  else if c = '\t' then ['\\', 't']
  else if c = '\x0c' then ['\\', 'f']
  else if c = '\x08' then ['\\', 'b']
  else if c.toNat < 0x20 then '\\' :: 'u' :: Text.hexDigits 4 c.toNat
  else [c]

def renderText (text : Text) : Text :=
  '"' :: text.flatMap escapedChar ++ ['"']

/-! ## Values -/

/-- What stands for an integer that cannot be written.  Nothing else is written
with it, since control characters are escaped. -/
def gap : Char := '\x00'

def newline (level : Nat) : Text :=
  '\n' :: List.replicate (4 * level) ' '

mutual

def renderAt (level : Nat) : Json → Text
  | .null => "null".toList
  | .boolean true => "true".toList
  | .boolean false => "false".toList
  | .integer value => if Text.isOversized value then [gap] else Text.ofInt value
  | .number value => value.text "Infinity".toList "NaN".toList
  | .text value => renderText value
  | .list [] => ['[', ']']
  | .list (item :: items) =>
      '[' :: newline (level + 1) ++ renderAt (level + 1) item ++
        renderItems (level + 1) items ++ newline level ++ [']']
  | .object [] => ['\x7b', '\x7d']
  | .object ((name, value) :: members) =>
      '\x7b' :: newline (level + 1) ++ renderText name ++ [':', ' '] ++
        renderAt (level + 1) value ++
        renderMembers (level + 1) members ++ newline level ++ ['\x7d']

def renderItems (level : Nat) : List Json → Text
  | [] => []
  | item :: items => ',' :: newline level ++ renderAt level item ++ renderItems level items

def renderMembers (level : Nat) : List (Text × Json) → Text
  | [] => []
  | (name, value) :: members =>
      ',' :: newline level ++ renderText name ++ [':', ' '] ++ renderAt level value ++
        renderMembers level members

end

def render (value : Json) : Text :=
  renderAt 0 value

/-! ## Names -/

mutual

def displayInner : Json → Text
  | .null => "None".toList
  | .boolean true => "True".toList
  | .boolean false => "False".toList
  | .integer value => Text.ofInt value
  | .number value => value.text "inf".toList "nan".toList
  | .text value => Text.quoted value
  | .list items => '[' :: Text.join [',', ' '] (displayItems items) ++ [']']
  | .object members => '\x7b' :: Text.join [',', ' '] (displayMembers members) ++ ['\x7d']

def displayItems : List Json → List Text
  | [] => []
  | item :: items => displayInner item :: displayItems items

def displayMembers : List (Text × Json) → List Text
  | [] => []
  | (name, value) :: members =>
      (Text.quoted name ++ [':', ' '] ++ displayInner value) :: displayMembers members

end

def display : Json → Text
  | .text value => value
  | value => displayInner value

end Json

end Relbase
