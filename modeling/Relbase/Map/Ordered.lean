import Relbase.Map.Assoc

/-!
# Maps in insertion order

An association list in which every key stands once.
-/

namespace Relbase

structure OrderedMap (κ ν : Type) where
  entries : List (κ × ν)
  distinct : (Assoc.keys entries).Nodup
  deriving DecidableEq, Repr

namespace OrderedMap

variable {κ ν : Type} [DecidableEq κ]

omit [DecidableEq κ] in
def empty : OrderedMap κ ν :=
  ⟨[], List.nodup_nil⟩

def get? (map : OrderedMap κ ν) (key : κ) : Option ν :=
  Assoc.get? key map.entries

def contains (map : OrderedMap κ ν) (key : κ) : Bool :=
  (map.get? key).isSome

def put (map : OrderedMap κ ν) (key : κ) (value : ν) : OrderedMap κ ν :=
  ⟨Assoc.put key value map.entries, Assoc.nodup_keys_put key value map.distinct⟩

def erase (map : OrderedMap κ ν) (key : κ) : OrderedMap κ ν :=
  ⟨Assoc.erase key map.entries, Assoc.nodup_keys_erase key map.distinct⟩

def ofList (entries : List (κ × ν)) : OrderedMap κ ν :=
  entries.foldl (fun map entry => map.put entry.1 entry.2) empty

@[simp] theorem get?_empty (key : κ) : (empty : OrderedMap κ ν).get? key = none := rfl

@[simp] theorem get?_put (map : OrderedMap κ ν) (key other : κ) (value : ν) :
    (map.put key value).get? other = if key = other then some value else map.get? other :=
  Assoc.get?_put key other value map.entries

@[simp] theorem get?_erase (map : OrderedMap κ ν) (key other : κ) :
    (map.erase key).get? other = if key = other then none else map.get? other :=
  Assoc.get?_erase key other map.entries

end OrderedMap

end Relbase
