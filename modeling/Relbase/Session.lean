import Relbase.Database

/-!
# Sessions

A session works on the databases below one root directory, of which at most one
is in use.
-/

namespace Relbase

structure Session where
  root : Place
  store : Store
  current : Option (Text × Database)

namespace Session

def start (root : Text) (store : Store) : Session :=
  ⟨.root root, store, none⟩

def databaseName (session : Session) : Option Text :=
  session.current.map Prod.fst

def directoryOf (session : Session) (name : Text) : Place :=
  session.root.child name

/-- Whether a directory with a metadata file has the name. -/
def databaseExists (session : Session) (name : Text) : Bool :=
  let directory := session.directoryOf name
  session.store.isDirectory directory && session.store.isFile (Database.metadataPlace directory)

def onStore {α : Type} (action : Action Store α) : Action Session α :=
  action.within Session.store fun store session => { session with store }

def onWorkspace {α : Type} (action : Action Workspace α) : Action Session α := do
  let session ← get
  match session.current with
  | none => Action.fail .noDatabaseInUse
  | some (name, database) =>
      let (outcome, workspace) := action.runOn ⟨database, session.store⟩
      set { session with store := workspace.store, current := some (name, workspace.database) }
      Action.ofOutcome outcome

def save : Action Session Unit := do
  match (← get).current with
  | none => return
  | some _ => onWorkspace Workspace.save

def close : Action Session Unit := do
  match (← get).current with
  | none => return
  | some _ =>
      save
      modify fun session => { session with current := none }

/-! ## Databases -/

def createDatabase (name : Text) : Action Session Unit := do
  let session ← get
  if session.databaseExists name then Action.fail (.duplicateDatabase name)
  else
    let directory := session.directoryOf name
    onStore (Files.change (.createDatabase name) directory (·.makeDirectory directory))
    onStore (Files.writeMetadata (Database.metadataPlace directory)
      (.object [(Database.tablesMember, .object [])]))

def descriptions (members : List (Text × Json)) : Except Failure (List (Text × Json)) :=
  let tables := (Assoc.get? Database.tablesMember members).getD .null
  if !tables.isPresent then .ok []
  else
    match tables with
    | .object entries => .ok entries
    | _ => .error (.unforeseen .tablesNotObject)

def schemasOf (members : List (Text × Json)) : Except Failure (List (Text × Schema)) := do
  (← descriptions members).mapM fun entry => do
    return (entry.1.lower, ← Schema.ofJson entry.2)

/-- Close the database in use and open another one. -/
def useDatabase (name : Text) : Action Session Unit := do
  if !(← get).databaseExists name then Action.fail (.databaseNotFound name)
  else
    close
    let directory := (← get).directoryOf name
    let members ← onStore (Files.readMetadata (Database.metadataPlace directory))
    let schemas ← Action.ofOutcome (schemasOf members)
    modify fun session => { session with current := some (name, .ofSchemas directory schemas) }

/-- Delete what lies under a name; a database in use is left without saving. -/
def deleteDatabase (name : Text) : Action Session Unit := do
  let session ← get
  let directory := session.directoryOf name
  if !session.store.entryExists directory then Action.fail (.databaseNotFound name)
  else
    if session.databaseName = some name then set { session with current := none }
    onStore (Files.deleteTree directory)

end Session

end Relbase
