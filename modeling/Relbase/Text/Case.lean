import Relbase.Text.CaseTable

/-!
# Lower case

`Text.lower` is the full lower-case form after Unicode 14.  Only two characters
need more than a look-up: the dotted capital I becomes two characters, and a
capital sigma takes its final form when it ends a word.
-/

namespace Relbase.Text

def isCaseIgnorable (c : Char) : Bool :=
  if c.toNat < 0x80 then
    c == '\x27' || c == '.' || c == ':' || c == '^' || c == '\x60'
  else caseIgnorableRanges.covers c.toNat

def isCased (c : Char) : Bool :=
  if c.toNat < 0x80 then c.isAlpha else casedRanges.covers c.toNat

def lowerChar (c : Char) : Char :=
  if c.toNat < 0x80 then c.toLower
  else
    match lowerRuns.find? (·.covers c.toNat) with
    | some run => Char.ofNat (c.toNat + run.shift).toNat
    | none => c

/-- Whether the next character that counts is cased. -/
def beginsCased (text : Text) : Bool :=
  match text.dropWhile isCaseIgnorable with
  | [] => false
  | c :: _ => isCased c

/-- The lower-case form of a text; `afterCased` says whether the last character
before it that counts is cased. -/
def lowerFrom (afterCased : Bool) : Text → Text
  | [] => []
  | c :: rest =>
      let form :=
        if c = 'Σ' then if afterCased && !beginsCased rest then ['ς'] else ['σ']
        else if c = 'İ' then ['i', '\u0307']
        else [lowerChar c]
      form ++ lowerFrom (if isCaseIgnorable c then afterCased else isCased c) rest

def lower (text : Text) : Text :=
  lowerFrom false text

end Relbase.Text
