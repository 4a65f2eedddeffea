import Relbase.Proofs.Number.Rounding
import Relbase.Proofs.Table.Kinds
import Relbase.Proofs.Value.Ordering

/-!
# Records selected by their ids

The cell of the id has the decimal text of the id, but it is compared with a literal as a
double.  So the record with an id is found together with those whose ids are rounded to the
same number, whatever the kind of the column.
-/

namespace Relbase

open Binary64

theorem Comparator.holds_equal_ofInt (column : ValueKind) (id n : Int) :
    holds .equal column (Text.ofInt id) (Text.ofInt n) = true ↔ nearestInt id = nearestInt n := by
  rw [holds_equal_of_numerals column (Numeral.read?_ofInt id) (Numeral.read?_ofInt n), beq_iff_eq,
    rank_eq_iff]

namespace Table

variable {table : Table}

def IsLabelled (table : Table) : Prop :=
  ∀ entry ∈ table.records.entries, entry.2.get? idName = some (Text.ofInt entry.1)

instance (table : Table) : Decidable table.IsLabelled :=
  inferInstanceAs (Decidable (∀ entry ∈ table.records.entries, _))

theorem IsLabelled.satisfies_iff (h : table.IsLabelled) {id : Int} {record : Record}
    (hrecord : table.records.get? id = some record) (n : Int) :
    table.satisfies record ⟨idName, .equal, Text.ofInt n⟩ = true ↔
      nearestInt id = nearestInt n := by
  have hcell : record.get? idName.lower = some (Text.ofInt id) :=
    h _ (SortedMap.get?_eq_some_iff.1 hrecord)
  rw [satisfies, hcell]
  exact Comparator.holds_equal_ofInt _ id n

/-- The records selected by an id are those whose ids are the same double.  This is the record
with the id or none if the id is small enough to have a double for itself, and for every other
id there is one that is not told apart from it. -/
theorem selected_by_id (htotal : table.IsTotal) (hlabelled : table.IsLabelled)
    (hid : table.attributes.contains idName = true) (n : Int) :
    ∃ ids, table.select (.leaf ⟨idName, .equal, Text.ofInt n⟩) = .ok ids ∧
      (∀ id, id ∈ ids ↔
        (table.records.get? id).isSome = true ∧ nearestInt id = nearestInt n) ∧
      (IsSeparate n.natAbs →
        ids = if (table.records.get? n).isSome = true then [n] else []) ∧
      (¬ IsSeparate n.natAbs → ∃ other, other ≠ n ∧ nearestInt other = nearestInt n) := by
  have hselected (id : Int) : id ∈ table.idsWhere
      (fun record => table.satisfies record ⟨idName, .equal, Text.ofInt n⟩) ↔
        (table.records.get? id).isSome = true ∧ nearestInt id = nearestInt n := by
    rw [mem_idsWhere, Option.isSome_iff_exists]
    constructor
    · rintro ⟨record, hrecord, hsatisfies⟩
      exact ⟨⟨record, hrecord⟩, (hlabelled.satisfies_iff hrecord n).1 hsatisfies⟩
    · rintro ⟨⟨record, hrecord⟩, hnearest⟩
      exact ⟨record, hrecord, (hlabelled.satisfies_iff hrecord n).2 hnearest⟩
  refine ⟨_, htotal.select_leaf hid, hselected, fun hseparate => ?_, exists_ne_nearestInt_eq⟩
  refine (table.pairwise_idsWhere _).eq_of_mem_iff (by split <;> simp) fun id => ?_
  rw [hselected]
  constructor
  · rintro ⟨hrecord, hnearest⟩
    cases hseparate.eq_of_nearestInt_eq hnearest
    simp [hrecord]
  · intro hmem
    split at hmem
    · rename_i hrecord
      cases List.mem_singleton.1 hmem
      exact ⟨hrecord, rfl⟩
    · cases hmem

def crowded : Table :=
  ((do
    let _ ← insert ["x".toList]
    let _ ← insert ["y".toList] : Action Table Unit).runOn
      (ofSchema { Schema.fresh "crowded".toList ⟨[idName, "a".toList], by decide +kernel⟩ with
        nextId := 9007199254740992 })).2

theorem selected_by_id_separate :
    (crowded.IsTotal ∧ crowded.IsLabelled ∧ crowded.attributes.contains idName = true) ∧
      crowded.select (.leaf ⟨idName, .equal, "9007199254740994".toList⟩) = .ok [] := by
  have htotal : crowded.IsTotal := by decide +kernel
  have hlabelled : crowded.IsLabelled := by decide +kernel
  have hid : crowded.attributes.contains idName = true := by decide +kernel
  obtain ⟨ids, hselect, -, hseparate, -⟩ := selected_by_id htotal hlabelled hid 9007199254740994
  refine ⟨⟨htotal, hlabelled, hid⟩, hselect.trans ?_⟩
  rw [hseparate (.inr ⟨by decide, by decide⟩), if_neg (by decide +kernel)]

/-- The record with an id is not the only one that is selected by it. -/
theorem selected_by_id_crowded :
    (crowded.IsTotal ∧ crowded.IsLabelled ∧ crowded.attributes.contains idName = true) ∧
      (crowded.select (.leaf ⟨idName, .equal, Text.ofInt 9007199254740993⟩)).toOption =
        some [9007199254740992, 9007199254740993] := by
  decide +kernel

end Table

end Relbase
