import Relbase.Execution

/-!
# Catalogs

A catalog keeps apart what a session keeps together.  Two fields say what is in use, a name
and a database, and a database has two dictionaries, one of schemas and one of tables.  They
are changed one after the other.  A schema is an object, to which the entry among the schemas
and the loaded table refer, so that either of them sees what the other does to it.
-/

namespace Relbase

abbrev SchemaRef := Nat

/-- The schema objects, and the reference that the next one gets. -/
structure SchemaHeap where
  read : SchemaRef → Schema
  next : SchemaRef

structure TableObject where
  schema : SchemaRef
  records : Records

/-- In `tables`, nothing stands for a table that is not loaded yet. -/
structure OpenDatabase where
  directory : Place
  schemas : OrderedMap Text SchemaRef
  tables : OrderedMap Text (Option TableObject)

/-- An open database together with what its actions reach besides. -/
structure Workbench where
  heap : SchemaHeap
  database : OpenDatabase
  store : Store

structure Catalog where
  root : Place
  store : Store
  heap : SchemaHeap
  databaseName : Option Text
  database : Option OpenDatabase

namespace SchemaHeap

def empty : SchemaHeap :=
  ⟨fun _ => .fresh [] .empty, 0⟩

def write (heap : SchemaHeap) (ref : SchemaRef) (schema : Schema) : SchemaHeap :=
  { heap with read := fun other => if other = ref then schema else heap.read other }

def made (heap : SchemaHeap) (schema : Schema) : SchemaHeap :=
  { heap.write heap.next schema with next := heap.next + 1 }

def makeAll (heap : SchemaHeap) :
    List (Text × Schema) → SchemaHeap × List (Text × SchemaRef)
  | [] => (heap, [])
  | (key, schema) :: rest =>
      let (later, refs) := (heap.made schema).makeAll rest
      (later, (key, heap.next) :: refs)

end SchemaHeap

def TableObject.seen (table : TableObject) (heap : SchemaHeap) : Table :=
  ⟨heap.read table.schema, table.records⟩

namespace OpenDatabase

def rowFilePlace (database : OpenDatabase) (key : Text) : Place :=
  database.directory.child (key ++ Database.rowFileSuffix)

def hasTable (database : OpenDatabase) (name : Text) : Bool :=
  database.tables.contains name.lower

def loadedNames (database : OpenDatabase) : List Text :=
  database.tables.entries.filterMap fun entry => entry.2.map fun _ => entry.1

def metadata (database : OpenDatabase) (heap : SchemaHeap) : Json :=
  .object [(Database.tablesMember,
    .object (database.schemas.entries.map fun entry => (entry.1, (heap.read entry.2).toJson)))]

def ofSchemas (directory : Place) (schemas : OrderedMap Text SchemaRef) : OpenDatabase :=
  ⟨directory, schemas, .ofList (schemas.entries.map fun entry => (entry.1, none))⟩

end OpenDatabase

namespace Workbench

def onStore {α : Type} (action : Action Store α) : Action Workbench α :=
  action.within Workbench.store fun store bench => { bench with store }

def putSchema (key : Text) (ref : SchemaRef) : Action Workbench Unit :=
  modify fun bench =>
    { bench with database := { bench.database with
        schemas := bench.database.schemas.put key ref } }

def putTable (key : Text) (table : Option TableObject) : Action Workbench Unit :=
  modify fun bench =>
    { bench with database := { bench.database with
        tables := bench.database.tables.put key table } }

def entry (name : Text) : Action Workbench (Option TableObject) := do
  match (← get).database.tables.get? name.lower with
  | some found => return found
  | none => Action.fail (.tableNotFound name)

def alter {α : Type} (key : Text) (table : TableObject) (action : Action Table α) :
    Action Workbench α := do
  let (outcome, changed) := action.runOn (table.seen (← get).heap)
  modify fun bench => { bench with heap := bench.heap.write table.schema changed.schema }
  putTable key (some { table with records := changed.records })
  Action.ofOutcome outcome

def writeTable (key : Text) (table : TableObject) : Action Workbench Unit := do
  let bench ← get
  onStore (Files.writeRows (bench.database.rowFilePlace key)
    (RowFile.ofTable (table.seen bench.heap)))

/-- The object of a name, loaded now if it was not before.  It refers to the schema that the
other dictionary has. -/
def loadTable (name : Text) : Action Workbench TableObject := do
  match ← entry name with
  | some table => return table
  | none =>
      let bench ← get
      match bench.database.schemas.get? name.lower with
      | none => Action.crash (.missingCell name.lower)
      | some ref =>
          let place := bench.database.rowFilePlace name.lower
          let file ← onStore (Files.readRows place)
          let (outcome, loaded) :=
            (Table.load place.path file).runOn (.ofSchema (bench.heap.read ref))
          Action.ofOutcome outcome
          putTable name.lower (some ⟨ref, loaded.records⟩)
          return ⟨ref, loaded.records⟩

def lookUp (name : Text) : Action Workbench Table := do
  let table ← loadTable name
  return table.seen (← get).heap

def onTable {α : Type} (name : Text) (action : Action Table α) : Action Workbench α := do
  alter name.lower (← loadTable name) action

def saveTable (name : Text) : Action Workbench Unit := do
  match ← entry name with
  | some table => writeTable name.lower table
  | none => return

def createTable (displayName : Text) (names : List Text) : Action Workbench Unit := do
  let bench ← get
  if bench.database.hasTable displayName then Action.fail (.duplicateTable displayName)
  else
    match Workspace.freshAttributes names with
    | .error error => Action.fail error
    | .ok attributes =>
        let table : TableObject := ⟨bench.heap.next, SortedMap.empty⟩
        set { bench with heap := bench.heap.made (.fresh displayName attributes) }
        putSchema displayName.lower table.schema
        putTable displayName.lower (some table)
        writeTable displayName.lower table

def removeSchema (key : Text) : Action Workbench Unit := do
  if !(← get).database.schemas.contains key then Action.crash (.missingCell key)
  else
    modify fun bench =>
      { bench with database := { bench.database with
          schemas := bench.database.schemas.erase key } }

def removeTable (key : Text) : Action Workbench Unit :=
  modify fun bench =>
    { bench with database := { bench.database with tables := bench.database.tables.erase key } }

def dropTable (name : Text) : Action Workbench Unit := do
  let _ ← entry name
  removeSchema name.lower
  removeTable name.lower
  onStore (Files.deleteFile ((← get).database.rowFilePlace name.lower))

def saveTables : List Text → Action Workbench Unit
  | [] => return
  | name :: rest => do
      saveTable name
      saveTables rest

def save : Action Workbench Unit := do
  let bench ← get
  onStore (Files.writeMetadata (Database.metadataPlace bench.database.directory)
    (bench.database.metadata bench.heap))
  saveTables bench.database.loadedNames

end Workbench

namespace Catalog

def start (root : Place) (store : Store) : Catalog :=
  ⟨root, store, .empty, none, none⟩

def directoryOf (catalog : Catalog) (name : Text) : Place :=
  catalog.root.child name

def databaseExists (catalog : Catalog) (name : Text) : Bool :=
  let directory := catalog.directoryOf name
  catalog.store.isDirectory directory && catalog.store.isFile (Database.metadataPlace directory)

def onStore {α : Type} (action : Action Store α) : Action Catalog α :=
  action.within Catalog.store fun store catalog => { catalog with store }

def onDatabase {α : Type} (action : Action Workbench α) : Action Catalog α := do
  let catalog ← get
  match catalog.database with
  | none => Action.fail .noDatabaseInUse
  | some database =>
      let (outcome, bench) := action.runOn ⟨catalog.heap, database, catalog.store⟩
      set { catalog with
        store := bench.store, heap := bench.heap, database := some bench.database }
      Action.ofOutcome outcome

def save : Action Catalog Unit := do
  match (← get).database with
  | none => return
  | some _ => onDatabase Workbench.save

def leave : Action Catalog Unit := do
  modify fun catalog => { catalog with databaseName := none }
  modify fun catalog => { catalog with database := none }

def close : Action Catalog Unit := do
  match (← get).database with
  | none => return
  | some _ =>
      save
      leave

def createDatabase (name : Text) : Action Catalog Unit := do
  let catalog ← get
  if catalog.databaseExists name then Action.fail (.duplicateDatabase name)
  else
    let directory := catalog.directoryOf name
    onStore (Files.change (.createDatabase name) directory (·.makeDirectory directory))
    onStore (Files.writeMetadata (Database.metadataPlace directory)
      (.object [(Database.tablesMember, .object [])]))

def useDatabase (name : Text) : Action Catalog Unit := do
  if !(← get).databaseExists name then Action.fail (.databaseNotFound name)
  else
    close
    let directory := (← get).directoryOf name
    let members ← onStore (Files.readMetadata (Database.metadataPlace directory))
    let schemas ← Action.ofOutcome (Session.schemasOf members)
    let (heap, refs) := (← get).heap.makeAll schemas
    modify fun catalog => { catalog with heap }
    modify fun catalog =>
      { catalog with database := some (.ofSchemas directory (.ofList refs)) }
    modify fun catalog => { catalog with databaseName := some name }

def deleteDatabase (name : Text) : Action Catalog Unit := do
  let catalog ← get
  let directory := catalog.directoryOf name
  if !catalog.store.entryExists directory then Action.fail (.databaseNotFound name)
  else
    if catalog.databaseName = some name then leave
    onStore (Files.deleteTree directory)

/-! ## Commands -/

def changeTable (name : Text) (change : Action Table Unit) : Action Catalog Unit := do
  onDatabase (Workbench.onTable name change)
  save

def changeSelected (name : Text) (condition : Condition) (change : List Int → Action Table Unit) :
    Action Catalog Unit :=
  changeTable name do
    let ids ← Action.ofOutcome ((← get).select condition)
    change ids

def execute : Command → Action Catalog (Option ResultSet)
  | .use database => do
      useDatabase database
      return none
  | .createDatabase database => do
      createDatabase database
      return none
  | .dropDatabase database => do
      deleteDatabase database
      return none
  | .createTable table names displayName => do
      onDatabase (Workbench.createTable (if displayName = [] then table else displayName) names)
      save
      return none
  | .dropTable table => do
      onDatabase (Workbench.dropTable table)
      save
      return none
  | .addAttribute table name => do
      changeTable table (Table.addAttribute name)
      return none
  | .dropAttribute table name => do
      changeTable table (Table.dropAttribute name)
      return none
  | .insert table values => do
      changeTable table do
        let _ ← Table.insert values
      return none
  | .select columns table condition => do
      let found ← onDatabase (Workbench.lookUp table)
      return some (← Action.ofOutcome (found.answer columns condition))
  | .delete table condition => do
      changeSelected table condition fun ids => do
        let _ ← Table.deleteRecords ids
      return none
  | .update table assignments condition => do
      changeSelected table condition (Table.updateRecords assignments)
      return none
  | .join leftTable rightTable leftColumn rightColumn => do
      let left ← onDatabase (Workbench.lookUp leftTable)
      let right ← onDatabase (Workbench.lookUp rightTable)
      return some (← Action.ofOutcome (left.join right leftColumn rightColumn))

def executeText (text : Text) : Action Catalog (Option ResultSet) :=
  match Command.ofText text with
  | .ok command => execute command
  | .error fault => Action.fail (.ofReadFault fault)

end Catalog

end Relbase
