import Relbase.Failure

/-!
# Attribute sets

Names in the order in which they were added and as they were spelled, no two of
which agree in lower case.
-/

namespace Relbase

structure AttributeSet where
  names : List Text
  distinct : (names.map Text.lower).Nodup
  deriving DecidableEq, Repr

namespace AttributeSet

def empty : AttributeSet :=
  ⟨[], List.nodup_nil⟩

def keys (set : AttributeSet) : List Text :=
  set.names.map Text.lower

def contains (set : AttributeSet) (name : Text) : Bool :=
  set.keys.contains name.lower

def add (set : AttributeSet) (name : Text) : Except DbError AttributeSet :=
  if h : name.lower ∈ set.keys then .error (.duplicateAttribute name)
  else
    .ok ⟨set.names ++ [name], by
      rw [List.map_append, List.nodup_append]
      refine ⟨set.distinct, by simp, fun a ha b hb => ?_⟩
      simp only [List.map_cons, List.map_nil, List.mem_singleton] at hb
      exact fun e => h (hb ▸ e ▸ ha)⟩

def addAll (set : AttributeSet) : List Text → Except DbError AttributeSet
  | [] => .ok set
  | name :: rest => do (← set.add name).addAll rest

def ofNames (names : List Text) : Except DbError AttributeSet :=
  empty.addAll names

def singleton (name : Text) : AttributeSet :=
  ⟨[name], by simp⟩

def erase (set : AttributeSet) (name : Text) : AttributeSet :=
  ⟨set.names.filter fun other => other.lower ≠ name.lower,
    set.distinct.sublist (List.filter_sublist.map _)⟩

def remove (set : AttributeSet) (name : Text) : Except DbError AttributeSet :=
  if set.contains name then .ok (set.erase name) else .error (.attributeNotFound name)

def canonical (set : AttributeSet) (name : Text) : Except DbError Text :=
  match set.names.find? fun other => other.lower = name.lower with
  | some spelled => .ok spelled
  | none => .error (.attributeNotFound name)

def size (set : AttributeSet) : Nat :=
  set.names.length

/-- The name at a position; negative positions count from the end. -/
def at? (set : AttributeSet) (position : Int) : Option Text :=
  let place := if position < 0 then position + set.size else position
  if place < 0 then none else set.names[place.toNat]?

def describe (set : AttributeSet) : Text :=
  "AttributeSet(".toList ++ Text.quotedList set.names ++ [')']

@[simp] theorem contains_iff (set : AttributeSet) (name : Text) :
    set.contains name = true ↔ name.lower ∈ set.keys := by
  simp [contains]

end AttributeSet

end Relbase
