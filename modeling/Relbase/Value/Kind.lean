import Relbase.Number.Numeral
import Relbase.Text.Case

/-!
# Kinds of values

Every value is stored as text.  Its kind is read off the text, and the kind of a
column is the kind of its first value that is not null.
-/

namespace Relbase

inductive ValueKind where
  | integer
  | decimal
  | boolean
  | null
  | text
  deriving DecidableEq, Repr

namespace ValueKind

def trueText : Text := "true".toList

def falseText : Text := "false".toList

def nullText : Text := "null".toList

/-- The kind of a value.  The empty text, which stands in cells that were never
filled, counts as null. -/
def of (value : Text) : ValueKind :=
  if value.isIntegerNumeral then .integer
  else if value.isDecimalNumeral then .decimal
  else if value.lower = trueText ∨ value.lower = falseText then .boolean
  else if value = [] ∨ value.lower = nullText then .null
  else .text

def infer : List Text → ValueKind
  | [] => .null
  | value :: rest => if of value = .null then infer rest else of value

end ValueKind

end Relbase
