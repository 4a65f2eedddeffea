import Relbase.Text.Escape
import Relbase.Text.WidthTable

/-!
# Display width

The number of columns that a line takes on a terminal.  Marks add nothing, East
Asian wide characters and emoji take two columns, and control characters are
invisible.  A line in which the cursor moves is as wide as the rightmost column
that the cursor leaves behind it.
-/

namespace Relbase.Text

/-! ## Characters -/

def isControl (c : Char) : Bool :=
  c.toNat < 0x20 || (0x7F ≤ c.toNat && c.toNat < 0xA0)

def isSkinTone (c : Char) : Bool :=
  0x1F3FB ≤ c.toNat && c.toNat ≤ 0x1F3FF

def isFlagLetter (c : Char) : Bool :=
  0x1F1E6 ≤ c.toNat && c.toNat ≤ 0x1F1FF

def joiner : Char := '\u200D'

def textSelector : Char := '\uFE0E'

def emojiSelector : Char := '\uFE0F'

def charWidth (c : Char) : Nat :=
  if isControl c then 0
  else if c.toNat < 0x7F then 1
  else if zeroWidthRanges.covers c.toNat then 0
  else if wideRanges.covers c.toNat then 2
  else 1

/-! ## Clusters -/

def widestCluster : Nat := 2

/-- What measuring a line remembers: the last character that took columns, whether
a selector or a mark may still change its width, whether a joiner came after it,
the columns of its cluster, whether a flag is half written, whether the next letter
joins the cluster, and whether a joiner hides the next character. -/
structure Measure where
  base : Option Char
  isOpen : Bool
  isLinked : Bool
  cluster : Nat
  halfFlag : Bool
  joins : Bool
  hides : Bool

namespace Measure

def start : Measure :=
  ⟨none, false, false, 0, false, false, false⟩

def baseIn (measure : Measure) (ranges : CodeRanges) : Bool :=
  match measure.base with
  | some c => ranges.covers c.toNat
  | none => false

def interrupt (measure : Measure) : Measure :=
  { measure with base := none, isOpen := false, cluster := 0, halfFlag := false }

/-- An emoji selector widens a narrow character if the cluster has room, and a text
selector narrows a wide one that no joiner links to another. -/
def select (measure : Measure) (c : Char) : Int × Measure :=
  let closed := { measure with isOpen := false }
  if c = textSelector then
    (if !measure.isLinked && measure.baseIn textFormRanges then -1 else 0, closed)
  else if measure.baseIn emojiFormRanges && measure.cluster < widestCluster then
    (1, { closed with cluster := widestCluster })
  else (0, closed)

/-- A mark takes a column if it stands beside its letter and the cluster has room
for it. -/
def addMark (measure : Measure) (c : Char) : Int × Measure :=
  let marked := { measure with joins := viramaRanges.covers c.toNat }
  if measure.isOpen && !marked.joins && spacingMarkRanges.covers c.toNat then
    let closed := { marked with isOpen := false }
    if measure.cluster < widestCluster then (1, { closed with cluster := measure.cluster + 1 })
    else (0, closed)
  else (0, marked)

def addLetter (measure : Measure) (c : Char) : Int × Measure :=
  let after := { measure with base := some c, isOpen := true, isLinked := false, joins := false }
  if measure.joins then (widestCluster - measure.cluster, { after with cluster := widestCluster })
  else (charWidth c, { after with cluster := charWidth c })

def link (measure : Measure) : Measure :=
  if measure.joins then measure else { measure with isLinked := true, hides := true }

def step (measure : Measure) (c : Char) : Int × Measure :=
  let after := { measure with halfFlag := isFlagLetter c && !measure.halfFlag, hides := false }
  if measure.hides then (0, after)
  else if c = joiner then (0, after.link)
  else if measure.isOpen && (c = textSelector || c = emojiSelector) then after.select c
  else if isFlagLetter c && measure.halfFlag then (0, { after with base := some c })
  else if isSkinTone c && measure.baseIn pictographRanges then (0, after)
  else if charWidth c = 0 then after.addMark c
  else after.addLetter c

def columns (measure : Measure) : Text → Int
  | [] => 0
  | c :: rest =>
      let (added, measure) := measure.step c
      added + measure.columns rest

/-- The columns of a text in which control characters may not show, except one that
has no effect anywhere. -/
def columns? (measure : Measure) : Text → Option Int
  | [] => some 0
  | c :: rest =>
      if !measure.hides && isControl c && c.toNat ≠ 0 then none
      else
        let (added, measure) := measure.step c
        (measure.columns? rest).map (added + ·)

end Measure

def shownColumns (shown : Text) : Nat :=
  ((Measure.start.columns? shown).getD 0).toNat

/-! ## The cursor -/

def tabStop : Nat := 8

/-- A cursor, which may stand before its line, and the rightmost column that it
left. -/
structure Cursor where
  measure : Measure
  column : Int
  extent : Nat

namespace Cursor

def start : Cursor :=
  ⟨.start, 0, 0⟩

def reached (cursor : Cursor) : Nat :=
  max cursor.extent cursor.column.toNat

def moveTo (cursor : Cursor) (column : Int) : Cursor :=
  ⟨cursor.measure.interrupt, column, cursor.reached⟩

/-- Do what an escape sequence says.  A flag letter that names a character set is
half of a flag all the same. -/
def follow (cursor : Cursor) : Escape → Cursor
  | .silent => cursor.moveTo cursor.column
  | .designate set =>
      let moved := cursor.moveTo cursor.column
      { moved with measure := { moved.measure with halfFlag := isFlagLetter set } }
  | .right columns => cursor.moveTo (cursor.column + columns)
  | .left columns => cursor.moveTo (max 0 (cursor.column - columns))
  | .toPlace place => cursor.moveTo (place - 1)
  | .sized scale columns shown =>
      let unscaled := if columns = 0 then shownColumns shown else columns
      cursor.moveTo (cursor.column + scale * unscaled)

def control (cursor : Cursor) (c : Char) : Cursor :=
  let column := cursor.column
  match c with
  | '\x08' => cursor.moveTo (if 0 < column then column - 1 else column)
  | '\r' => cursor.moveTo 0
  | '\t' => cursor.moveTo (column + (tabStop - column % tabStop))
  | _ => cursor.moveTo column

/-- The cursor after a character that stands in front of a text, and how much of
that text belongs to the character. -/
def step (cursor : Cursor) (c : Char) (rest : Text) : Cursor × Nat :=
  if cursor.measure.hides || !isControl c then
    let (added, measure) := cursor.measure.step c
    ({ cursor with measure, column := cursor.column + added }, 0)
  else if c = '\x1b' then
    match Escape.read? rest with
    | some (escape, length) => (cursor.follow escape, length)
    | none => (cursor.control c, 0)
  else (cursor.control c, 0)

def run (cursor : Cursor) (skipped : Nat) : Text → Cursor
  | [] => cursor
  | c :: rest =>
      match skipped with
      | later + 1 => cursor.run later rest
      | 0 =>
          let (cursor, taken) := cursor.step c rest
          cursor.run taken rest

end Cursor

/-! ## Lines -/

def movesCursor : Text → Bool
  | [] => false
  | c :: rest =>
      let moves := match c with
        | '\x1b' =>
            match Escape.read? rest with
            | some (escape, _) => escape.moves
            | none => false
        | _ => c = '\x08' || c = '\t' || c = '\r'
      moves || movesCursor rest

/-- The text without escape sequences and control characters, of which the first
`skipped` characters were taken before. -/
def visible (skipped : Nat) : Text → Text
  | [] => []
  | c :: rest =>
      match skipped with
      | later + 1 => visible later rest
      | 0 =>
          if c = '\x1b' then
            match Escape.read? rest with
            | some (_, length) => visible length rest
            | none => visible 0 rest
          else if isControl c then visible 0 rest
          else c :: visible 0 rest

/-- Longer lines are measured by what is visible of them, unless the cursor moves
in them. -/
def shortLine : Nat := 20

def width (text : Text) : Nat :=
  if shortLine < text.length && !movesCursor text then
    (Measure.start.columns (visible 0 text)).toNat
  else (Cursor.start.run 0 text).reached

end Relbase.Text
