import Relbase.Number.Numeral
import Relbase.Text.Basic

/-!
# Escape sequences

A text may hold orders to the terminal.  Each begins with an escape character; how
it goes on decides where it ends and what it does to the line.  Colours, links,
titles and the choice of a character set show nothing; some sequences move the
cursor along the line, and one shows a text at a size of its own.
-/

namespace Relbase.Text

/-- What an escape sequence does to the line.  Places on the line are counted from
one. -/
inductive Escape where
  | silent
  | designate (set : Char)
  | right (columns : Nat)
  | left (columns : Nat)
  | toPlace (place : Nat)
  | sized (scale columns : Nat) (shown : Text)
  deriving DecidableEq, Repr

namespace Escape

def moves : Escape → Bool
  | .silent | .designate _ => false
  | .right _ | .left _ | .toPlace _ | .sized _ _ _ => true

/-! ## Control sequences -/

def isParameter (c : Char) : Bool :=
  0x30 ≤ c.toNat && c.toNat ≤ 0x3F

def isIntermediate (c : Char) : Bool :=
  0x20 ≤ c.toNat && c.toNat ≤ 0x2F

def isFinal (c : Char) : Bool :=
  0x40 ≤ c.toNat && c.toNat ≤ 0x7E

def ofControl (parameters : Text) (final : Char) : Escape :=
  if parameters.all isDigit then
    let number := if parameters = [] then 1 else digitsValue parameters
    match final with
    | 'C' => .right number
    | 'D' => .left number
    | 'G' => .toPlace number
    | _ => .silent
  else .silent

def control? (text : Text) : Option (Escape × Nat) :=
  let parameters := text.takeWhile isParameter
  let intermediates := (text.drop parameters.length).takeWhile isIntermediate
  let beforeFinal := parameters ++ intermediates
  match text.drop beforeFinal.length with
  | final :: _ =>
      if isFinal final then some (ofControl beforeFinal final, beforeFinal.length + 1) else none
  | [] => none

/-! ## Command strings -/

def commandString? : Text → Option (Text × Nat)
  | [] => none
  | '\x07' :: _ => some ([], 1)
  | '\x1b' :: '\\' :: _ => some ([], 2)
  | c :: rest =>
      if c = '\x1b' then none
      else (commandString? rest).map fun (content, length) => (c :: content, length + 1)

/-- The number that the settings of a sized text give to a key, which is kept
between two bounds; the last number counts. -/
def setting (key : Char) (least greatest default : Nat) (settings : Text) : Nat :=
  (splitOn ':' settings).foldl (fun found entry =>
    match entry with
    | name :: '=' :: value =>
        if name = key then
          match readInteger value with
          | .ok number => max least (min greatest number.toNat)
          | .error _ => found
        else found
    | _ => found) default

def sizedCode : Text := ['6', '6']

def largestSize : Nat := 7

def ofCommand (content : Text) : Escape :=
  match splitOn ';' content with
  | code :: settings :: shown =>
      if code = sizedCode then
        .sized (setting 's' 1 largestSize 1 settings) (setting 'w' 0 largestSize 0 settings)
          (join [';'] shown)
      else .silent
  | _ => .silent

/-! ## All sequences -/

/-- The characters that end a sequence with intermediate characters, and each of
which is a whole sequence, too. -/
def standsAlone (c : Char) : Bool :=
  0x30 ≤ c.toNat && c.toNat ≤ 0x7E

def intermediate? (text : Text) : Option Nat :=
  let more := text.takeWhile isIntermediate
  match text.drop more.length with
  | final :: _ => if standsAlone final then some (more.length + 1) else none
  | [] => none

def designation? : Text → Option (Escape × Nat)
  | [] => none
  | set :: _ => if set = '\n' then none else some (.designate set, 1)

def continued? (first : Char) (rest : Text) : Option (Escape × Nat) :=
  match first with
  | '[' => control? rest
  | ']' => (commandString? rest).map fun (content, length) => (ofCommand content, length)
  | 'P' | '_' | '^' => (commandString? rest).map fun (_, length) => (.silent, length)
  | '(' | ')' => designation? rest
  | _ =>
      if isIntermediate first then (intermediate? rest).map fun length => (.silent, length)
      else none

/-- The sequence that goes on with a text after the escape character, and its
length from there.  What begins a longer sequence and is not finished is a short
one, if it can be. -/
def read? : Text → Option (Escape × Nat)
  | [] => none
  | first :: rest =>
      match continued? first rest with
      | some (escape, length) => some (escape, length + 1)
      | none => if standsAlone first then some (.silent, 1) else none

end Escape

end Relbase.Text
