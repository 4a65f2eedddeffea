import Relbase.Files
import Relbase.Text.Wide

/-!
# Tables with surrogates in their cells

Values come from commands, so a cell may have surrogates in it as long as it is in memory.
The lines of a row file are written one by one, and where one cannot be encoded, those before
it stay in the file.  The cells that are read from a file have none.
-/

namespace Relbase

abbrev WideRecord := SortedMap Text WideText

structure WideTable where
  schema : Schema
  records : SortedMap Int WideRecord

def Table.widened (table : Table) : WideTable where
  schema := table.schema
  records := table.records.mapValues fun _ (record : Record) =>
    record.mapValues fun _ cell => WideText.ofText cell

/-! ## Row files -/

namespace RowFile

def encodeLine? (cells : List WideText) : Option Text :=
  (cells.mapM WideText.encode?).map renderLine

/-- The lines before the first one that cannot be encoded, and whether these are all. -/
def encodeLines : List (List WideText) → Text × Bool
  | [] => ([], true)
  | cells :: rest =>
      match encodeLine? cells with
      | none => ([], false)
      | some line =>
          let (lines, complete) := encodeLines rest
          (line ++ lines, complete)

end RowFile

def Files.writeWideLines (place : Place) (lines : List (List WideText)) : Action Store Unit := do
  let (written, complete) := RowFile.encodeLines lines
  writeText (.writeRows place.path) place written
  if !complete then Action.crash .surrogate

/-! ## Tables -/

namespace WideTable

def ofSchema (schema : Schema) : WideTable :=
  ⟨schema, SortedMap.empty⟩

def columns (table : WideTable) : List Text :=
  table.schema.attributes.keys

def row (keys : List Text) (record : WideRecord) : List WideText :=
  keys.map fun key => (record.get? key).getD []

def rows (table : WideTable) : List (List WideText) :=
  table.records.entries.map fun entry => row table.columns entry.2

def save (table : WideTable) (place : Place) : Action Store Unit :=
  Files.writeWideLines place (table.schema.attributes.names.map WideText.ofText :: table.rows)

/-- As `Table.insert`. -/
def insert (values : List WideText) : Action WideTable Int := do
  let table ← get
  let columns := table.columns.drop 1
  if values.length ≠ columns.length then Action.fail (.valueCount columns.length values.length)
  else
    let id := table.schema.nextId
    set { table with schema := { table.schema with nextId := id + 1 } }
    if Text.isOversized id then Action.crash .oversizedInteger
    else
      let record := SortedMap.ofList
        ((idName, WideText.ofText (Text.ofInt id)) :: columns.zip values)
      modify fun table => { table with records := table.records.insert id record }
      return id

end WideTable

end Relbase
