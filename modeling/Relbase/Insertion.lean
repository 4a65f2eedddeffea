import Relbase.Session
import Relbase.Table.Wide

/-!
# Inserting values with surrogates

An insertion of any values into a table of the database in use, up to the outcome and the
files that it leaves.  The table that it changes cannot be written if one of the values has a
surrogate in it.
-/

namespace Relbase

namespace Workspace

/-- Write the row files of loaded tables, of which the one with a key has changed. -/
def writeTablesWith (key : Text) (changed : WideTable) :
    List (Text × Table) → Action Workspace Unit
  | [] => return
  | (other, table) :: rest => do
      if other = key then
        onStore (changed.save ((← get).database.rowFilePlace key))
      else writeTable other table
      writeTablesWith key changed rest

def insertWide (name : Text) (values : List WideText) : Action Workspace Unit := do
  let table ← loadTable name
  let (outcome, changed) := (WideTable.insert values).runOn table.widened
  let _ ← Action.ofOutcome outcome
  register name.lower ⟨changed.schema, some table.records⟩
  let database := (← get).database
  onStore (Files.writeMetadata (Database.metadataPlace database.directory) database.metadata)
  writeTablesWith name.lower changed database.loadedTables

end Workspace

/-- How an insertion ends, and the files that it leaves. -/
def Session.insertWide (session : Session) (table : Text) (values : List WideText) :
    Except Failure Unit × Store :=
  let (outcome, later) := (onWorkspace (Workspace.insertWide table values)).runOn session
  (outcome, later.store)

end Relbase
