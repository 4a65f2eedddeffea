import Relbase.Files
import Relbase.Map.Ordered

/-!
# Databases

A database is a directory with a metadata file and a row file for every table.
Tables are registered by their name in lower case; the records of a table are
loaded when it is first asked for.  A registered table has its schema from the
metadata on, so loading it cannot change its schema.
-/

namespace Relbase

/-- A registered table; its records are missing until it is loaded. -/
structure Registration where
  schema : Schema
  records : Option Records

structure Database where
  directory : Place
  tables : OrderedMap Text Registration

/-- A database in use together with the store that it lies in. -/
structure Workspace where
  database : Database
  store : Store

namespace Registration

def table? (registration : Registration) : Option Table :=
  registration.records.map fun records => ⟨registration.schema, records⟩

def ofTable (table : Table) : Registration :=
  ⟨table.schema, some table.records⟩

end Registration

namespace Database

def metadataName : Text := "metadata.json".toList

def rowFileSuffix : Text := ".tab".toList

def tablesMember : Text := "tables".toList

def metadataPlace (directory : Place) : Place :=
  directory.child metadataName

def rowFilePlace (database : Database) (key : Text) : Place :=
  database.directory.child (key ++ rowFileSuffix)

def hasTable (database : Database) (name : Text) : Bool :=
  database.tables.contains name.lower

def loadedTables (database : Database) : List (Text × Table) :=
  database.tables.entries.filterMap fun entry => entry.2.table?.map fun table => (entry.1, table)

def metadata (database : Database) : Json :=
  .object [(tablesMember,
    .object (database.tables.entries.map fun entry => (entry.1, entry.2.schema.toJson)))]

def ofSchemas (directory : Place) (schemas : List (Text × Schema)) : Database :=
  ⟨directory, OrderedMap.ofList (schemas.map fun entry => (entry.1, ⟨entry.2, none⟩))⟩

end Database

namespace Workspace

def onStore {α : Type} (action : Action Store α) : Action Workspace α :=
  action.within Workspace.store fun store workspace => { workspace with store }

def register (key : Text) (registration : Registration) : Action Workspace Unit :=
  modify fun workspace =>
    { workspace with
      database := { workspace.database with
        tables := workspace.database.tables.put key registration } }

def unregister (key : Text) : Action Workspace Unit :=
  modify fun workspace =>
    { workspace with
      database := { workspace.database with tables := workspace.database.tables.erase key } }

def registration (name : Text) : Action Workspace Registration := do
  match (← get).database.tables.get? name.lower with
  | some found => return found
  | none => Action.fail (.tableNotFound name)

/-! ## Tables -/

def writeTable (key : Text) (table : Table) : Action Workspace Unit := do
  onStore (Files.writeRows ((← get).database.rowFilePlace key) (RowFile.ofTable table))

def loadTable (name : Text) : Action Workspace Table := do
  let found ← registration name
  match found.table? with
  | some table => return table
  | none =>
      let place := (← get).database.rowFilePlace name.lower
      let file ← onStore (Files.readRows place)
      let (outcome, table) := (Table.load place.path file).runOn (Table.ofSchema found.schema)
      Action.ofOutcome outcome
      register name.lower (.ofTable table)
      return table

/-- Act on a table; what a failing action has changed stays changed. -/
def onTable {α : Type} (name : Text) (action : Action Table α) : Action Workspace α := do
  let table ← loadTable name
  let (outcome, changed) := action.runOn table
  register name.lower (.ofTable changed)
  Action.ofOutcome outcome

def saveTable (name : Text) : Action Workspace Unit := do
  match (← registration name).table? with
  | some table => writeTable name.lower table
  | none => return

def freshAttributes (names : List Text) : Except DbError AttributeSet :=
  names.foldlM (fun set name => if set.contains name then .error .repeatedColumn else set.add name)
    (.singleton idName)

def createTable (displayName : Text) (names : List Text) : Action Workspace Unit := do
  if (← get).database.hasTable displayName then Action.fail (.duplicateTable displayName)
  else
    match freshAttributes names with
    | .error error => Action.fail error
    | .ok attributes =>
        let table := Table.ofSchema (.fresh displayName attributes)
        register displayName.lower (.ofTable table)
        writeTable displayName.lower table

def dropTable (name : Text) : Action Workspace Unit := do
  let _ ← registration name
  unregister name.lower
  onStore (Files.deleteFile ((← get).database.rowFilePlace name.lower))

/-! ## Saving -/

def writeTables : List (Text × Table) → Action Workspace Unit
  | [] => return
  | (key, table) :: rest => do
      writeTable key table
      writeTables rest

def save : Action Workspace Unit := do
  let database := (← get).database
  onStore (Files.writeMetadata (Database.metadataPlace database.directory) database.metadata)
  writeTables database.loadedTables

end Workspace

end Relbase
