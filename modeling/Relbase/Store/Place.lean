import Relbase.Text.Basic

/-!
# Places of files

A place is a path as messages show it, together with the steps that lead to it
from the root directory of the store.  A path that does not begin at the root
leads out of the store and has no steps.
-/

namespace Relbase

structure Place where
  path : Text
  steps : Option (List Text)
  deriving DecidableEq, Repr

namespace Place

def root (path : Text) : Place :=
  ⟨path, some []⟩

/-- A path relative to a directory.  An absolute path replaces the directory's. -/
def child (directory : Place) (name : Text) : Place :=
  if name.head? = some '/' then ⟨name, none⟩
  else
    let path :=
      if directory.path = [] || directory.path.getLast? = some '/' then directory.path ++ name
      else directory.path ++ '/' :: name
    ⟨path, directory.steps.map (· ++ Text.splitOn '/' name)⟩

def isMalformed (place : Place) : Bool :=
  place.path.contains '\x00'

end Place

end Relbase
