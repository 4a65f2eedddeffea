import Relbase.Query.Command
import Relbase.Table.Basic

/-!
# Selecting records

A condition selects the ids of the records for which it holds.  A comparison is
decided under the kind of its column, which is inferred from the whole table; both
sides of a connective are always evaluated, the left one first.
-/

namespace Relbase

/-! ## Sets of ids

Ids in ascending order. -/

namespace IdSet

def insert (id : Int) : List Int → List Int
  | [] => [id]
  | other :: rest =>
      if id < other then id :: other :: rest
      else if id = other then other :: rest
      else other :: insert id rest

def union (first second : List Int) : List Int :=
  second.foldl (fun set id => insert id set) first

def inter (first second : List Int) : List Int :=
  first.filter second.contains

end IdSet

def Formula.select {ε α : Type} (leaf : α → Except ε (List Int)) :
    Formula α → Except ε (List Int)
  | .leaf test => leaf test
  | .joined left connective right => do
      let first ← left.select leaf
      let second ← right.select leaf
      return match connective with
        | .and => IdSet.inter first second
        | .or => IdSet.union first second

namespace Table

def satisfying (table : Table) (comparison : Comparison) : Except Failure (List Int) :=
  if !table.attributes.contains comparison.column then
    .error (.reported (.attributeNotFound comparison.column))
  else
    match table.values comparison.column with
    | .error fault => .error (.unforeseen fault)
    | .ok values =>
        let kind := ValueKind.infer values
        let key := comparison.column.lower
        .ok ((table.records.entries.filter fun entry =>
          comparison.comparator.holds kind ((entry.2.get? key).getD []) comparison.literal).map
            Prod.fst)

def select (table : Table) (condition : Condition) : Except Failure (List Int) :=
  condition.select table.satisfying

end Table

end Relbase
