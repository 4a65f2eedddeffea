import Relbase.Failure

/-!
# Classes of errors

What tells errors apart without their messages.  Two failures of one class may name
different things, or the same thing in different spellings.
-/

namespace Relbase

inductive ErrorClass where
  | databaseNotFound
  | tableNotFound
  | attributeNotFound
  | recordNotFound
  | duplicateDatabase
  | duplicateTable
  | duplicateAttribute
  | invalidQuery
  | primaryKeyAlteration
  | invalidList
  | invalidValue
  | noDatabaseInUse
  | storage
  deriving DecidableEq, Repr

def DbError.errorClass : DbError → ErrorClass
  | .databaseNotFound _ => .databaseNotFound
  | .tableNotFound _ => .tableNotFound
  | .attributeNotFound _ => .attributeNotFound
  | .recordNotFound _ => .recordNotFound
  | .duplicateDatabase _ => .duplicateDatabase
  | .duplicateTable _ => .duplicateTable
  | .duplicateAttribute _ => .duplicateAttribute
  | .repeatedColumn => .duplicateAttribute
  | .invalidQuery _ => .invalidQuery
  | .primaryKeyAlteration => .primaryKeyAlteration
  | .invalidList _ => .invalidList
  | .valueCount _ _ => .invalidValue
  | .noDatabaseInUse => .noDatabaseInUse
  | .storage _ => .storage

def ReadFault.errorClass (fault : ReadFault) : ErrorClass :=
  (DbError.ofReadFault fault).errorClass

/-- The class of a reported error; a fault that is not foreseen is told apart by itself. -/
def Failure.errorClass : Failure → ErrorClass ⊕ Fault
  | .reported error => .inl error.errorClass
  | .unforeseen fault => .inr fault

@[simp] theorem ReadFault.errorClass_query (fault : QueryFault) :
    (ReadFault.query fault).errorClass = .invalidQuery :=
  rfl

@[simp] theorem ReadFault.errorClass_list (fault : ListFault) :
    (ReadFault.list fault).errorClass = .invalidList :=
  rfl

theorem eq_unforeseen_of_errorClass {α : Type} {outcome : Except Failure α} {fault : Fault}
    (h : outcome.mapError Failure.errorClass = .error (.inr fault)) :
    outcome = .error (.unforeseen fault) := by
  cases outcome with
  | ok result => cases h
  | error failure =>
      cases failure <;> cases h
      rfl

end Relbase
