import Relbase.Map.Sorted
import Relbase.Table.Schema

/-!
# Tables

A table is a schema and its records by id.  A record maps attribute names in
lower case to values, so it does not depend on the spelling or the order of the
attributes.  Actions on a table keep what they have done when they fail.
-/

namespace Relbase

abbrev Record := SortedMap Text Text

abbrev Records := SortedMap Int Record

structure Table where
  schema : Schema
  records : Records

namespace Table

def ofSchema (schema : Schema) : Table :=
  ⟨schema, SortedMap.empty⟩

def attributes (table : Table) : AttributeSet :=
  table.schema.attributes

def ids (table : Table) : List Int :=
  table.records.keys

def columns (table : Table) : List Text :=
  table.attributes.keys

/-! ## Reading -/

def getRecord (table : Table) (id : Int) : Except DbError Record :=
  match table.records.get? id with
  | some record => .ok record
  | none => .error (.recordNotFound id)

def cell (record : Record) (key : Text) : Except Fault Text :=
  match record.get? key with
  | some value => .ok value
  | none => .error (.missingCell key)

def values (table : Table) (name : Text) : Except Fault (List Text) :=
  table.records.entries.mapM fun entry => cell entry.2 name.lower

/-- The values of a record under some keys; what is missing is empty. -/
def row (keys : List Text) (record : Record) : List Text :=
  keys.map fun key => (record.get? key).getD []

def rows (table : Table) (names : List Text) : List (List Text) :=
  table.records.entries.map fun entry => row (names.map Text.lower) entry.2

def rowsOf (table : Table) (names : List Text) (ids : List Int) : List (List Text) :=
  ((ids.filter table.records.contains).mergeSort (· ≤ ·)).filterMap fun id =>
    (table.records.get? id).map (row (names.map Text.lower))

/-! ## Structure -/

def addAttribute (name : Text) : Action Table Unit := do
  let table ← get
  match table.attributes.add name with
  | .error error => Action.fail error
  | .ok attributes =>
      set { table with
        schema := { table.schema with attributes }
        records := table.records.mapValues fun _ (record : Record) => record.insert name.lower [] }

def dropAttribute (name : Text) : Action Table Unit := do
  let table ← get
  if !table.attributes.contains name then Action.fail (.attributeNotFound name)
  else if table.schema.isKey name then Action.fail .primaryKeyAlteration
  else
    set { table with
      schema := { table.schema with attributes := table.attributes.erase name }
      records := table.records.mapValues fun _ (record : Record) => record.erase name.lower }

/-! ## Records -/

def allocateId : Action Table Int := do
  let table ← get
  set { table with schema := { table.schema with nextId := table.schema.nextId + 1 } }
  return table.schema.nextId

def store (id : Int) (record : Record) : Action Table Unit :=
  modify fun table => { table with records := table.records.insert id record }

/-- A record under a new id with values for the attributes after the first.  An id
that cannot be written is lost. -/
def insert (values : List Text) : Action Table Int := do
  let columns := (← get).columns.drop 1
  if values.length ≠ columns.length then Action.fail (.valueCount columns.length values.length)
  else
    let id ← allocateId
    if Text.isOversized id then Action.crash .oversizedInteger
    else
      store id (SortedMap.ofList ((idName, Text.ofInt id) :: columns.zip values))
      return id

/-- A record under a new id with values under names, which must be attributes. -/
def appendRecord (cells : List (Text × Text)) : Action Table Int := do
  let table ← get
  match cells.find? fun entry => !table.attributes.contains entry.1 with
  | some entry => Action.fail (.attributeNotFound entry.1)
  | none =>
      let id ← allocateId
      let lowered := SortedMap.ofList (cells.map fun entry => (entry.1.lower, entry.2))
      store id (lowered.insert idName (Text.ofInt id))
      return id

/-- Append a record in a table whose counter may have any value.  An id that cannot be
written is lost. -/
def addRecord (cells : List (Text × Text)) : Action Table Int := do
  let table ← get
  let named := cells.all fun entry => table.attributes.contains entry.1
  if named && Text.isOversized table.schema.nextId then
    let _ ← allocateId
    Action.crash .oversizedInteger
  else appendRecord cells

def assign (id : Int) : List (Text × Text) → Action Table Unit
  | [] => return
  | (name, value) :: rest => do
      let table ← get
      if table.schema.isKey name then Action.fail .primaryKeyAlteration
      else if !table.attributes.contains name then Action.fail (.attributeNotFound name)
      else
        match table.records.get? id with
        | none => Action.fail (.recordNotFound id)
        | some record =>
            store id (record.insert name.lower value)
            assign id rest

def updateRecord (id : Int) (assignments : List (Text × Text)) : Action Table Unit := do
  match (← get).records.get? id with
  | none => Action.fail (.recordNotFound id)
  | some _ => assign id assignments

def updateRecords (assignments : List (Text × Text)) : List Int → Action Table Unit
  | [] => return
  | id :: rest => do
      updateRecord id assignments
      updateRecords assignments rest

def deleteRecords : List Int → Action Table Nat
  | [] => return 0
  | id :: rest => do
      let table ← get
      let found := table.records.contains id
      set { table with records := table.records.erase id }
      return (← deleteRecords rest) + (if found then 1 else 0)

end Table

end Relbase
