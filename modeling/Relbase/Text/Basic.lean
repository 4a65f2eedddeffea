/-!
# Texts

Names, cells, lines and files are texts: finite lists of characters.  The
operations here know nothing about particular characters.
-/

namespace Relbase

abbrev Text := List Char

namespace Text

def extendFirst (c : Char) : List Text → List Text
  | [] => [[c]]
  | piece :: rest => (c :: piece) :: rest

/-- The pieces between the occurrences of a separator; there is always one more
piece than there are separators. -/
def splitOn (separator : Char) : Text → List Text
  | [] => [[]]
  | c :: rest =>
      if c = separator then [] :: splitOn separator rest
      else extendFirst c (splitOn separator rest)

def join (separator : Text) : List Text → Text
  | [] => []
  | [piece] => piece
  | piece :: rest => piece ++ separator ++ join separator rest

def occursIn (part : Text) : Text → Bool
  | [] => part.isEmpty
  | c :: rest => part.isPrefixOf (c :: rest) || occursIn part rest

def ofInt (i : Int) : Text :=
  (toString i).toList

def ofNat (n : Nat) : Text :=
  (toString n).toList

@[simp] theorem extendFirst_ne_nil (c : Char) (pieces : List Text) :
    extendFirst c pieces ≠ [] := by
  cases pieces <;> simp [extendFirst]

@[simp] theorem splitOn_ne_nil (separator : Char) (text : Text) :
    splitOn separator text ≠ [] := by
  cases text with
  | nil => simp [splitOn]
  | cons c rest => by_cases h : c = separator <;> simp [splitOn, h]

theorem join_splitOn (separator : Char) (text : Text) :
    join [separator] (splitOn separator text) = text := by
  induction text with
  | nil => rfl
  | cons c rest ih =>
      cases hpieces : splitOn separator rest with
      | nil => exact absurd hpieces (splitOn_ne_nil separator rest)
      | cons piece more =>
          rw [hpieces] at ih
          by_cases h : c = separator
          · simp [splitOn, h, hpieces, join, ih]
          · cases more with
            | nil => simpa [splitOn, h, hpieces, extendFirst, join] using ih
            | cons next later =>
                simpa [splitOn, h, hpieces, extendFirst, join] using ih

end Text

abbrev CodeRanges := List (Nat × Nat)

def CodeRanges.covers (ranges : CodeRanges) (code : Nat) : Bool :=
  ranges.any fun range => range.1 ≤ code && code ≤ range.2

end Relbase
