import Relbase.Value.Kind

/-!
# Comparing values

A stored value and a literal are compared as numbers when both are numerals.
Where they are not, equality is equality of texts, a column of booleans ignores
case, inequality holds only in columns of booleans and of texts, and no order
holds.
-/

namespace Relbase

inductive Comparator where
  | equal
  | notEqual
  | less
  | lessOrEqual
  | greater
  | greaterOrEqual
  | like
  deriving DecidableEq, Repr

namespace Comparator

def ranks? (stored literal : Text) : Option (Int × Int) := do
  let left ← Numeral.read? stored
  let right ← Numeral.read? literal
  pure (left.toBinary64.rank, right.toBinary64.rank)

def ranked (relation : Int → Int → Bool) (stored literal : Text) : Bool :=
  match ranks? stored literal with
  | some (left, right) => relation left right
  | none => false

def holds (comparator : Comparator) (column : ValueKind) (stored literal : Text) : Bool :=
  match comparator with
  | .equal =>
      ranked (fun left right => left == right) stored literal || stored == literal ||
        (column == .boolean && stored.lower == literal.lower)
  | .notEqual =>
      ranked (fun left right => left != right) stored literal ||
        (column == .boolean && stored.lower != literal.lower) ||
        (column == .text && stored != literal)
  | .less => ranked (fun left right => left < right) stored literal
  | .lessOrEqual => ranked (fun left right => left ≤ right) stored literal
  | .greater => ranked (fun left right => right < left) stored literal
  | .greaterOrEqual => ranked (fun left right => right ≤ left) stored literal
  | .like => Text.occursIn literal.lower stored.lower

end Comparator

end Relbase
