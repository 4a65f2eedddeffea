import Relbase.Map.Sorted
import Relbase.Table.AttributeSet

/-!
# Names with an index

A name index keeps names in the order and the spelling in which they were added and,
beside them, a set of keys by which it tells whether a name is there.  The two are
changed one after the other, and an index is kept when a call on it is refused.  An
`AttributeSet` gives the same answers and has no keys but those of its names.
-/

namespace Relbase

structure NameIndex where
  names : List Text
  keys : SortedMap Text Unit
  deriving DecidableEq, Repr

namespace NameIndex

def empty : NameIndex :=
  ⟨[], SortedMap.empty⟩

def contains (index : NameIndex) (name : Text) : Bool :=
  index.keys.contains name.lower

def add (name : Text) : Action NameIndex Unit := do
  if (← get).contains name then Action.fail (.duplicateAttribute name)
  else
    modify fun index => { index with keys := index.keys.insert name.lower () }
    modify fun index => { index with names := index.names ++ [name] }

def addAll : List Text → Action NameIndex Unit
  | [] => return
  | name :: rest => do
      add name
      addAll rest

/-- Begin anew with other names.  What is there is given up when all of them are added. -/
def construct (names : List Text) : Action NameIndex Unit := do
  let (outcome, fresh) := (addAll names).runOn empty
  Action.ofOutcome outcome
  set fresh

/-- Remove a key and all names that it belongs to. -/
def remove (name : Text) : Action NameIndex Unit := do
  if !(← get).contains name then Action.fail (.attributeNotFound name)
  else
    modify fun index => { index with keys := index.keys.erase name.lower }
    modify fun index =>
      { index with names := index.names.filter fun other => other.lower ≠ name.lower }

def canonical (index : NameIndex) (name : Text) : Except DbError Text :=
  match index.names.find? fun other => other.lower = name.lower with
  | some spelled => .ok spelled
  | none => .error (.attributeNotFound name)

inductive Call where
  | construct (names : List Text)
  | add (name : Text)
  | remove (name : Text)
  deriving DecidableEq, Repr

def Call.run : Call → Action NameIndex Unit
  | .construct names => NameIndex.construct names
  | .add name => NameIndex.add name
  | .remove name => NameIndex.remove name

def next (index : NameIndex) (call : Call) : NameIndex :=
  (call.run.runOn index).2

def after (calls : List Call) : NameIndex :=
  calls.foldl next empty

end NameIndex

end Relbase
