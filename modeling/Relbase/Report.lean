import Relbase.Response
import Relbase.Text.Width

/-!
# Reports

A result is shown as a grid: the names, a rule, and the rows, with bars between
columns that are as wide as their widest line.  Cells may hold several lines, and
their tabs are expanded; names are shown on one line as they are, but cut where they
do not fit.
-/

namespace Relbase

namespace Text

def expandTabsFrom (column : Nat) : Text → Text
  | [] => []
  | c :: rest =>
      if c = '\t' then
        let gap := tabStop - column % tabStop
        List.replicate gap ' ' ++ expandTabsFrom (column + gap) rest
      else if c = '\n' || c = '\r' then c :: expandTabsFrom 0 rest
      else c :: expandTabsFrom (column + 1) rest

def expandTabs (text : Text) : Text :=
  expandTabsFrom 0 text

def blockWidth (text : Text) : Nat :=
  ((splitOn '\n' text).map width).foldl max 0

def padTo (columns : Nat) (text : Text) : Text :=
  text ++ List.replicate (columns - width text) ' '

/-- The beginning of a text that is wider than a number of columns: as many
characters as there are columns. -/
def cutTo (columns : Nat) (text : Text) : Text :=
  if columns < width text then text.take columns else text

end Text

namespace ResultSet

/-- The names above the columns.  Rows without names have numbered columns. -/
def headings (result : ResultSet) : List Text :=
  match result.names, result.rows with
  | [], row :: _ => (List.range row.length).map fun n => "Field ".toList ++ Text.ofNat (n + 1)
  | names, _ => names

def barred (cells : List Text) : Text :=
  '|' :: cells.flatMap fun cell => ' ' :: cell ++ [' ', '|']

def rowLines (widths : List Nat) (cells : List Text) : List Text :=
  let blocks := cells.map (Text.splitOn '\n')
  let height := (blocks.map List.length).foldl max 0
  (List.range height).map fun n =>
    barred ((widths.zip blocks).map fun column => Text.padTo column.1 ((column.2[n]?).getD []))

def columnWidths (names : List Text) (rows : List (List Text)) : List Nat :=
  names.zipIdx.map fun (name, place) =>
    (rows.map fun row => Text.blockWidth ((row[place]?).getD [])).foldl max (Text.blockWidth name)

def headerLine (widths : List Nat) (names : List Text) : Text :=
  barred ((widths.zip names).map fun (width, name) =>
    Text.padTo width (Text.cutTo width name))

def ruleLine (widths : List Nat) : Text :=
  '=' :: widths.flatMap fun width => List.replicate (width + 3) '='

def gridLines (names : List Text) (rows : List (List Text)) : List Text :=
  let rows := rows.map fun row => row.map Text.expandTabs
  let widths := columnWidths names rows
  if names = [] then [['|', '|'], ['=', '=']]
  else headerLine widths names :: ruleLine widths :: rows.flatMap (rowLines widths)

/-- The grid of a result whose names differ and whose rows are as long as its
names, with some cell in each. -/
def grid (result : ResultSet) : Except Fault Text :=
  let names := result.headings
  if !decide names.Nodup then .error .repeatedHeading
  else if result.rows.any (·.length ≠ names.length) then .error .raggedRow
  else if result.rows.contains [] then .error .emptyRow
  else .ok (Text.join ['\n'] (gridLines names result.rows))

end ResultSet

def Report.ofResult : Option ResultSet → Except Fault Text :=
  ofRendering ResultSet.grid

def Session.respond : Text → Action Session Text :=
  respondBy ResultSet.grid

end Relbase
