import Relbase.Table.Basic
import Relbase.Text.Blank

/-!
# Row files

A row file is a text of lines: the attribute names, then a line for every record,
with tabs between the cells.  Nothing is escaped.  Reading skips empty lines after
the first, fills up short lines, and ignores what is left over of long ones.
-/

namespace Relbase

structure RowFile where
  header : List Text
  rows : List (List Text)
  deriving DecidableEq, Repr

namespace RowFile

def renderLine (cells : List Text) : Text :=
  Text.join ['\t'] cells ++ ['\n']

def render (file : RowFile) : Text :=
  renderLine file.header ++ file.rows.flatMap renderLine

def parse (text : Text) : RowFile :=
  match text.lines with
  | [] => ⟨[], []⟩
  | header :: lines =>
      ⟨Text.splitOn '\t' header, (lines.filter (!·.isEmpty)).map (Text.splitOn '\t')⟩

def recordOf (columns : List Text) (cells : List Text) : Record :=
  SortedMap.ofList
    (columns.zip (cells ++ List.replicate (columns.length - cells.length) []))

def ofTable (table : Table) : RowFile :=
  ⟨table.attributes.names, table.rows table.attributes.names⟩

end RowFile

namespace Table

/-- Take in lines one after another as records under the ids that they hold. -/
def loadRows (path : Text) : List (List Text) → Action Table Unit
  | [] => return
  | cells :: rest => do
      let record := RowFile.recordOf (← get).columns cells
      match record.get? idName with
      | none => Action.crash (.missingCell idName)
      | some cell =>
          match Text.readInteger cell with
          | .error _ => Action.fail (.storage (.badId cell path))
          | .ok id =>
              store id record
              loadRows path rest

def load (path : Text) (file : RowFile) : Action Table Unit := do
  modify fun table => { table with records := SortedMap.empty }
  loadRows path file.rows

end Table

end Relbase
