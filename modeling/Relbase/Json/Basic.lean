import Relbase.Map.Assoc
import Relbase.Number.Binary64
import Relbase.Text.Basic

/-!
# JSON values

Integers have any size and are kept apart from double precision numbers.  The
members of an object keep their order, and every name stands once.
-/

namespace Relbase

inductive Json where
  | null
  | boolean (value : Bool)
  | integer (value : Int)
  | number (value : Binary64)
  | text (value : Text)
  | list (items : List Json)
  | object (members : List (Text × Json))
  deriving Repr, Inhabited

namespace Json

/-- A value that stands for something: not null, false, zero or empty. -/
def isPresent : Json → Bool
  | .null => false
  | .boolean value => value
  | .integer value => value != 0
  | .number value => !value.isZero
  | .text value => !value.isEmpty
  | .list items => !items.isEmpty
  | .object members => !members.isEmpty

end Json

end Relbase
