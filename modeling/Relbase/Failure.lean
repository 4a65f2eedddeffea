import Relbase.Json.Parser
import Relbase.Query.Reader
import Relbase.Store.Basic

/-!
# Failures

A `DbError` is reported to the client as a message; a `Fault` is not foreseen and
ends the program.  An `Action` on a state may fail, and a failing action keeps
what it has changed before.
-/

namespace Relbase

/-! ## Storage -/

def Json.kindWord : Json → Text
  | .null => "NoneType".toList
  | .boolean _ => "bool".toList
  | .integer _ => "int".toList
  | .number _ => "float".toList
  | .text _ => "str".toList
  | .list _ => "list".toList
  | .object _ => "dict".toList

/-- Why a JSON value describes no table. -/
inductive SchemaFault where
  | notObject (found : Json)
  | missingMember (name : Text)
  | notIterable (found : Json)
  | notCounter (found : Json)
  | badCounter (text : Text)
  | oversizedCounter (digits : Nat)
  | undefinedCounter
  deriving Repr

namespace SchemaFault

def shownLength : Nat := 200

def message : SchemaFault → Text
  | .notObject found =>
      match found with
      | .list _ => "list indices must be integers or slices, not str".toList
      | .text _ => "string indices must be integers, not 'str'".toList
      | other => ['\x27'] ++ other.kindWord ++ "' object is not subscriptable".toList
  | .missingMember name => name.quoted
  | .notIterable found => ['\x27'] ++ found.kindWord ++ "' object is not iterable".toList
  | .notCounter found =>
      "int() argument must be a string, a bytes-like object or a real number, not '".toList ++
        found.kindWord ++ ['\x27']
  | .badCounter text =>
      "invalid literal for int() with base 10: ".toList ++ text.quoted.take shownLength
  | .oversizedCounter digits =>
      "Exceeds the limit (".toList ++ Text.ofNat Text.digitLimit ++
        " digits) for integer string conversion: value has ".toList ++ Text.ofNat digits ++
        " digits; use sys.set_int_max_str_digits() to increase the limit".toList
  | .undefinedCounter => "cannot convert float NaN to integer".toList

end SchemaFault

inductive StorageTask where
  | readMetadata (path : Text)
  | writeMetadata (path : Text)
  | readRows (path : Text)
  | writeRows (path : Text)
  | delete (path : Text)
  | createDatabase (name : Text)
  deriving DecidableEq, Repr

inductive StorageFault where
  | file (task : StorageTask) (fault : FileFault)
  | json (path : Text) (problem : Json.Problem)
  | notMetadata (path : Text)
  | schema (fault : SchemaFault)
  | badId (cell path : Text)
  deriving Repr

def StorageTask.message : StorageTask → Text
  | .readMetadata path => "Failed to read metadata ".toList ++ path
  | .writeMetadata path => "Failed to write metadata ".toList ++ path
  | .readRows path => "Failed to read table file ".toList ++ path
  | .writeRows path => "Failed to write table file ".toList ++ path
  | .delete path => "Failed to delete ".toList ++ path
  | .createDatabase name => "Failed to create database \"".toList ++ name ++ ['"']

namespace StorageFault

def headline : StorageFault → Text
  | .file task _ => task.message
  | .json path _ => (StorageTask.readMetadata path).message
  | .notMetadata path => "Malformed metadata in ".toList ++ path
  | .schema _ => "Malformed table metadata".toList
  | .badId cell path => "Bad id ".toList ++ cell.quoted ++ " in ".toList ++ path

def detail? : StorageFault → Option Text
  | .file _ fault => some fault.message
  | .json _ problem => some problem.message
  | .schema fault => some fault.message
  | .notMetadata _ => none
  | .badId _ _ => none

def message (fault : StorageFault) : Text :=
  match fault.detail? with
  | some detail => fault.headline ++ [':', ' '] ++ detail
  | none => fault.headline

end StorageFault

/-! ## Errors -/

inductive DbError where
  | databaseNotFound (name : Text)
  | tableNotFound (name : Text)
  | attributeNotFound (name : Text)
  | recordNotFound (id : Int)
  | duplicateDatabase (name : Text)
  | duplicateTable (name : Text)
  | duplicateAttribute (name : Text)
  | repeatedColumn
  | invalidQuery (fault : QueryFault)
  | primaryKeyAlteration
  | invalidList (fault : ListFault)
  | valueCount (expected found : Nat)
  | noDatabaseInUse
  | storage (fault : StorageFault)
  deriving Repr

namespace DbError

def absent (noun name : Text) : Text :=
  noun ++ " \"".toList ++ name ++ "\" does not exist".toList

def present (noun name : Text) : Text :=
  noun ++ " \"".toList ++ name ++ "\" already exists".toList

def message : DbError → Text
  | .databaseNotFound name => absent "Database".toList name
  | .tableNotFound name => absent "Table".toList name
  | .attributeNotFound name => absent "Attribute".toList name
  | .recordNotFound id => "No record with id ".toList ++ Text.ofInt id
  | .duplicateDatabase name => present "Database".toList name
  | .duplicateTable name => present "Table".toList name
  | .duplicateAttribute name => present "Attribute".toList name
  | .repeatedColumn => "Table creation failed: attribute names must be unique".toList
  | .invalidQuery fault => fault.message
  | .primaryKeyAlteration => "The id attribute cannot be altered".toList
  | .invalidList fault => fault.message
  | .valueCount expected found =>
      "Expected ".toList ++ Text.ofNat expected ++ " values, got ".toList ++ Text.ofNat found
  | .noDatabaseInUse => "No database in use".toList
  | .storage fault => fault.message

def ofReadFault : ReadFault → DbError
  | .query fault => .invalidQuery fault
  | .list fault => .invalidList fault

end DbError

/-! ## Faults -/

inductive Fault where
  | missingCell (name : Text)
  | nameNotText
  | tablesNotObject
  | undecodable
  | surrogate
  | oversizedInteger
  | infiniteCounter
  | malformedPath
  | repeatedHeading
  | raggedRow
  | emptyRow
  deriving DecidableEq, Repr

def Fault.message : Fault → Text
  | .missingCell name => "A record has no value for ".toList ++ name.quoted
  | .nameNotText => "An attribute name is not a text".toList
  | .tablesNotObject => "The tables of a database are not an object".toList
  | .undecodable => "A file is not text".toList
  | .surrogate => "A text has a surrogate in it".toList
  | .oversizedInteger => "An integer has too many digits".toList
  | .infiniteCounter => "A counter is infinite".toList
  | .malformedPath => "A path holds a null character".toList
  | .repeatedHeading => "A heading is repeated".toList
  | .raggedRow => "A row does not fit its headings".toList
  | .emptyRow => "A row has no cells".toList

inductive Failure where
  | reported (error : DbError)
  | unforeseen (fault : Fault)
  deriving Repr

def Failure.message : Failure → Text
  | .reported error => error.message
  | .unforeseen fault => fault.message

/-! ## Actions -/

abbrev Action (σ α : Type) := ExceptT Failure (StateM σ) α

namespace Action

variable {σ τ α : Type}

def runOn (action : Action σ α) (state : σ) : Except Failure α × σ :=
  (ExceptT.run action).run state

def fail (error : DbError) : Action σ α :=
  throw (.reported error)

def crash (fault : Fault) : Action σ α :=
  throw (.unforeseen fault)

def ofOutcome (outcome : Except Failure α) : Action σ α :=
  ExceptT.mk (pure outcome)

/-- An action on a part of the state. -/
def within (part : σ → τ) (replace : τ → σ → σ) (action : Action τ α) : Action σ α :=
  ExceptT.mk fun state =>
    let (outcome, changed) := action.runOn (part state)
    (outcome, replace changed state)

end Action

end Relbase
