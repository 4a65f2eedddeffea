import Relbase.Query.Reader
import Relbase.Session
import Relbase.Table.Selection

/-!
# Executing commands

What each command does to a session.  A command that changes a table ends with
saving the database in use; selections and joins have a result and save nothing.
-/

namespace Relbase

structure ResultSet where
  names : List Text
  rows : List (List Text)
  deriving DecidableEq, Repr

/-! ## Selecting -/

namespace Table

def resolveNames (attributes : AttributeSet) (seen : List Text) :
    List Text → Except DbError (List Text)
  | [] => .ok []
  | name :: rest =>
      if !attributes.contains name then .error (.attributeNotFound name)
      else if seen.contains name.lower then resolveNames attributes seen rest
      else do
        let spelled ← attributes.canonical name
        return spelled :: (← resolveNames attributes (name.lower :: seen) rest)

def resolve (attributes : AttributeSet) : Columns → Except DbError (List Text)
  | .all => .ok attributes.names
  | .named names => resolveNames attributes [] names

def answer (table : Table) (columns : Columns) (condition : Option Condition) :
    Except Failure ResultSet :=
  match resolve table.attributes columns with
  | .error error => .error (.reported error)
  | .ok names =>
      match condition with
      | none => .ok ⟨names, table.rows names⟩
      | some condition => do
          let ids ← table.select condition
          return ⟨names, table.rowsOf names ids⟩

/-! ## Joining -/

/-- The attributes of a table that a join carries over: all but the id and the
joined one. -/
def carried (table : Table) (on : Text) : List Text :=
  table.attributes.names.filter fun name => name.lower ≠ idName ∧ name.lower ≠ on.lower

def qualified (table : Table) (name : Text) : Text :=
  table.schema.displayName.display ++ '.' :: name

def qualifiedCells (table : Table) (names : List Text) (record : Record) :
    Except Fault (List (Text × Text)) :=
  names.mapM fun name => do return (table.qualified name, ← cell record name.lower)

/-- Add a record for every record of the right table that agrees with a record
of the left one. -/
def joinRecord (left right : Table) (leftOn rightOn : Text) (leftRecord : Record) :
    List Record → Action Table Unit
  | [] => return
  | rightRecord :: rest => do
      let leftValue ← crashing (cell leftRecord leftOn.lower)
      let rightValue ← crashing (cell rightRecord rightOn.lower)
      if leftValue = rightValue then
        let leftCells ← crashing (left.qualifiedCells (left.carried leftOn) leftRecord)
        let rightCells ← crashing (right.qualifiedCells (right.carried rightOn) rightRecord)
        -- The ids of a join count its records from one, so they are never too long to write.
        let _ ← appendRecord (leftCells ++ rightCells)
      joinRecord left right leftOn rightOn leftRecord rest
where
  crashing {α : Type} : Except Fault α → Action Table α
    | .ok result => return result
    | .error fault => Action.crash fault

def joinRecords (left right : Table) (leftOn rightOn : Text) : List Record → Action Table Unit
  | [] => return
  | leftRecord :: rest => do
      joinRecord left right leftOn rightOn leftRecord (right.records.entries.map Prod.snd)
      joinRecords left right leftOn rightOn rest

def joinAttributes (left right : Table) (leftOn rightOn : Text) : Except DbError AttributeSet :=
  (AttributeSet.singleton idName).addAll
    ((left.carried leftOn).map left.qualified ++ (right.carried rightOn).map right.qualified)

/-- The pairs of records of two tables that agree as texts in one attribute of
each, numbered from one. -/
def join (left right : Table) (leftOn rightOn : Text) : Except Failure ResultSet :=
  if !left.attributes.contains leftOn then .error (.reported (.attributeNotFound leftOn))
  else if !right.attributes.contains rightOn then .error (.reported (.attributeNotFound rightOn))
  else
    match joinAttributes left right leftOn rightOn with
    | .error error => .error (.reported error)
    | .ok attributes => do
        let start := Table.ofSchema (.fresh "join".toList attributes)
        let (outcome, result) :=
          (joinRecords left right leftOn rightOn (left.records.entries.map Prod.snd)).runOn start
        outcome
        return ⟨attributes.names, result.rows attributes.names⟩

end Table

/-! ## Commands -/

namespace Session

def changeTable (name : Text) (change : Action Table Unit) : Action Session Unit := do
  onWorkspace (Workspace.onTable name change)
  save

def changeSelected (name : Text) (condition : Condition) (change : List Int → Action Table Unit) :
    Action Session Unit :=
  changeTable name do
    let ids ← Action.ofOutcome ((← get).select condition)
    change ids

def execute : Command → Action Session (Option ResultSet)
  | .use database => do
      useDatabase database
      return none
  | .createDatabase database => do
      createDatabase database
      return none
  | .dropDatabase database => do
      deleteDatabase database
      return none
  | .createTable table names displayName => do
      onWorkspace (Workspace.createTable (if displayName = [] then table else displayName) names)
      save
      return none
  | .dropTable table => do
      onWorkspace (Workspace.dropTable table)
      save
      return none
  | .addAttribute table name => do
      changeTable table (Table.addAttribute name)
      return none
  | .dropAttribute table name => do
      changeTable table (Table.dropAttribute name)
      return none
  | .insert table values => do
      changeTable table do
        let _ ← Table.insert values
      return none
  | .select columns table condition => do
      let found ← onWorkspace (Workspace.loadTable table)
      return some (← Action.ofOutcome (found.answer columns condition))
  | .delete table condition => do
      changeSelected table condition fun ids => do
        let _ ← Table.deleteRecords ids
      return none
  | .update table assignments condition => do
      changeSelected table condition (Table.updateRecords assignments)
      return none
  | .join leftTable rightTable leftColumn rightColumn => do
      let left ← onWorkspace (Workspace.loadTable leftTable)
      let right ← onWorkspace (Workspace.loadTable rightTable)
      return some (← Action.ofOutcome (left.join right leftColumn rightColumn))

def executeText (text : Text) : Action Session (Option ResultSet) :=
  match Command.ofText text with
  | .ok command => execute command
  | .error fault => Action.fail (.ofReadFault fault)

end Session

end Relbase
